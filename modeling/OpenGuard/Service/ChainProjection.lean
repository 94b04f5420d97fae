import OpenGuard.Service.ChainRuns

/-!
# Chains of different processes

What the engine holds of a process, its chain and its cooldowns, changes only with the events of
that process, as long as no chain is evicted.

* `AgreeOn`: two engines hold the same of a process.
* `agreeOn_ingestEvents`: the events of the process alone have the same effect on it as the whole
  batch, and raise the same alerts.
* `chains_do_not_interfere`: two runs with the same events of a process return the same alerts for
  it.
-/

namespace OpenGuard.Service

open OpenGuard.Lib OpenGuard.Domain OpenGuard.Windows BehaviorChainEngine

/-- The two engines hold the same chain and the same cooldowns of a process. -/
structure AgreeOn (correlationId : String) (engine₁ engine₂ : BehaviorChainEngine) : Prop where
  chain : engine₁.chains.lookup correlationId = engine₂.chains.lookup correlationId
  reported : ∀ rule, engine₁.reported.lookup (correlationId, rule) =
    engine₂.reported.lookup (correlationId, rule)

/-- The events of a process. -/
def eventsOf (correlationId : String) (events : List SysmonEvent) : List SysmonEvent :=
  events.filter fun event => stableCorrelationId event = some correlationId

/-- The alerts for a process. -/
def alertsFor (correlationId : String) (alerts : List BehaviorAlert) : List BehaviorAlert :=
  alerts.filter fun alert => alert.correlationId = correlationId

section agree

variable {correlationId : String} {engine engine₁ engine₂ engine₃ : BehaviorChainEngine} {now : ℕ}
  {event : SysmonEvent} {events : List SysmonEvent} {chain : Chain} {rules : List Rule}

theorem AgreeOn.refl (correlationId : String) (engine : BehaviorChainEngine) :
    AgreeOn correlationId engine engine :=
  ⟨rfl, fun _ => rfl⟩

theorem AgreeOn.symm (h : AgreeOn correlationId engine₁ engine₂) :
    AgreeOn correlationId engine₂ engine₁ := ⟨h.chain.symm, fun rule => (h.reported rule).symm⟩

theorem AgreeOn.trans (h₁ : AgreeOn correlationId engine₁ engine₂)
    (h₂ : AgreeOn correlationId engine₂ engine₃) : AgreeOn correlationId engine₁ engine₃ :=
  ⟨h₁.chain.trans h₂.chain, fun rule => (h₁.reported rule).trans (h₂.reported rule)⟩

theorem agreeOn_prune (h : AgreeOn correlationId engine₁ engine₂) :
    AgreeOn correlationId (engine₁.prune now) (engine₂.prune now) where
  chain := by simp [prune, h.chain]
  reported rule := by simp [prune, h.reported rule]

/-- The loop over the rules only looks at the cooldowns of its process. -/
theorem report_congr {reported₁ reported₂ : Table (String × Rule) ℕ}
    (h : ∀ rule, reported₁.lookup (correlationId, rule) = reported₂.lookup (correlationId, rule)) :
    (report now correlationId chain rules reported₁).2 =
        (report now correlationId chain rules reported₂).2 ∧
      ∀ rule, (report now correlationId chain rules reported₁).1.lookup (correlationId, rule) =
        (report now correlationId chain rules reported₂).1.lookup (correlationId, rule) := by
  induction rules generalizing reported₁ reported₂ with
  | nil => exact ⟨rfl, h⟩
  | cons first rules ih =>
      unfold report
      rw [h first]
      split_ifs with hcooling
      · exact ih h
      · have hinsert : ∀ rule,
            (reported₁.insert (correlationId, first) now).lookup (correlationId, rule) =
              (reported₂.insert (correlationId, first) now).lookup (correlationId, rule) := by
          intro rule
          by_cases hrule : (correlationId, rule) = (correlationId, first)
          · rw [hrule, AList.lookup_insert, AList.lookup_insert]
          · rw [AList.lookup_insert_ne hrule, AList.lookup_insert_ne hrule, h rule]
        obtain ⟨halerts, hreported⟩ := ih hinsert
        exact ⟨congrArg (buildAlert first correlationId chain :: ·) halerts, hreported⟩

/-- All alerts of a report are for its process. -/
theorem correlationId_of_mem_report {reported : Table (String × Rule) ℕ} {alert : BehaviorAlert}
    (h : alert ∈ (report now correlationId chain rules reported).2) :
    alert.correlationId = correlationId := by
  obtain ⟨rule, -, rfl⟩ := mem_report_alerts h
  rfl

/-- An event of the process has the same effect on engines that agree on it. -/
theorem agreeOn_ingestEvent (now : ℕ) (h : AgreeOn correlationId engine₁ engine₂)
    (hid : stableCorrelationId event = some correlationId) :
    AgreeOn correlationId (ingestEvent now engine₁ event).1 (ingestEvent now engine₂ event).1 ∧
      (ingestEvent now engine₁ event).2 = (ingestEvent now engine₂ event).2 := by
  cases hkind : classify event with
  | none => simpa [ingestEvent, hkind] using h
  | some kind =>
      simp only [ingestEvent_of_classified hid hkind, h.chain]
      obtain ⟨halerts, hreported⟩ := report_congr h.reported
      exact ⟨⟨by simp, hreported⟩, halerts⟩

/-- An event of another process has no effect on it, and raises no alert for it. -/
theorem agreeOn_ingestEvent_of_ne (now : ℕ) (engine : BehaviorChainEngine)
    (hid : stableCorrelationId event ≠ some correlationId) :
    AgreeOn correlationId (ingestEvent now engine event).1 engine ∧
      alertsFor correlationId (ingestEvent now engine event).2 = [] := by
  rcases ingestEvent_cases now engine event with ⟨-, hsame⟩ | ⟨other, kind, hother, hkind⟩
  · rw [hsame]
    exact ⟨AgreeOn.refl correlationId engine, rfl⟩
  · have hne : correlationId ≠ other := by
      rintro rfl
      exact hid hother
    rw [ingestEvent_of_classified hother hkind]
    refine ⟨⟨AList.lookup_insert_ne hne, fun rule => lookup_report_of_ne hne⟩, ?_⟩
    apply List.filter_eq_nil_iff.mpr
    intro alert halert
    rw [correlationId_of_mem_report halert]
    simp [Ne.symm hne]

/-- An event of the process raises alerts for it only. -/
theorem alertsFor_ingestEvent (hid : stableCorrelationId event = some correlationId) :
    alertsFor correlationId (ingestEvent now engine event).2 =
      (ingestEvent now engine event).2 := by
  apply List.filter_eq_self.mpr
  intro alert halert
  obtain ⟨rule, chain, hevent, -⟩ := mem_ingestEvent_alerts halert
  rw [hid] at hevent
  simpa using hevent.symm

/-- A batch has the same effect on a process as its events alone. -/
theorem agreeOn_ingestEvents (now : ℕ) (events : List SysmonEvent)
    (h : AgreeOn correlationId engine₁ engine₂) :
    AgreeOn correlationId (ingestEvents now engine₁ events).1
        (ingestEvents now engine₂ (eventsOf correlationId events)).1 ∧
      alertsFor correlationId (ingestEvents now engine₁ events).2 =
        (ingestEvents now engine₂ (eventsOf correlationId events)).2 := by
  induction events generalizing engine₁ engine₂ with
  | nil => exact ⟨h, rfl⟩
  | cons event events ih =>
      rw [ingestEvents_cons]
      by_cases hid : stableCorrelationId event = some correlationId
      · have hkept : eventsOf correlationId (event :: events) =
            event :: eventsOf correlationId events := List.filter_cons_of_pos (by simpa using hid)
        obtain ⟨hagree, halerts⟩ := agreeOn_ingestEvent now h hid
        obtain ⟨hagree, hmore⟩ := ih hagree
        rw [hkept, ingestEvents_cons]
        refine ⟨hagree, ?_⟩
        rw [alertsFor, List.filter_append, ← alertsFor, ← alertsFor, alertsFor_ingestEvent hid,
          halerts, hmore]
      · have hdropped : eventsOf correlationId (event :: events) =
            eventsOf correlationId events := List.filter_cons_of_neg (by simpa using hid)
        obtain ⟨hsame, hnone⟩ := agreeOn_ingestEvent_of_ne now engine₁ hid
        obtain ⟨hagree, hmore⟩ := ih (hsame.trans h)
        rw [hdropped]
        refine ⟨hagree, ?_⟩
        rw [alertsFor, List.filter_append, ← alertsFor, ← alertsFor, hnone, List.nil_append, hmore]

end agree

/-! ## Two runs -/

/-- The calls come at the same time and bring the same events of the process. -/
structure SameCallFor (correlationId : String) (call₁ call₂ : IngestCall) : Prop where
  now : call₁.now = call₂.now
  events : eventsOf correlationId call₁.events = eventsOf correlationId call₂.events

theorem SameCallFor.refl (correlationId : String) (call : IngestCall) :
    SameCallFor correlationId call call := ⟨rfl, rfl⟩

section runs

variable {correlationId : String} {engine₁ engine₂ : BehaviorChainEngine}
  {call₁ call₂ : IngestCall} {calls₁ calls₂ : List IngestCall}

/-- Calls that bring the same events of a process have the same effect on it before
`enforce_capacity`, and return the same alerts for it. -/
theorem agreeOn_filled (h : AgreeOn correlationId engine₁ engine₂)
    (hcall : SameCallFor correlationId call₁ call₂) :
    AgreeOn correlationId (engine₁.filled call₁) (engine₂.filled call₂) ∧
      alertsFor correlationId (engine₁.alerts call₁) =
        alertsFor correlationId (engine₂.alerts call₂) := by
  have hpruned : AgreeOn correlationId (engine₁.prune call₁.now) (engine₂.prune call₁.now) :=
    agreeOn_prune h
  obtain ⟨hagree₁, halerts₁⟩ := agreeOn_ingestEvents call₁.now call₁.events hpruned
  obtain ⟨hagree₂, halerts₂⟩ := agreeOn_ingestEvents call₁.now call₂.events
    (AgreeOn.refl correlationId (engine₂.prune call₁.now))
  unfold BehaviorChainEngine.filled BehaviorChainEngine.alerts ingestAt
  rw [hcall.events] at hagree₁ halerts₁
  rw [← hcall.now]
  exact ⟨hagree₁.trans hagree₂.symm, halerts₁.trans halerts₂.symm⟩

/-- From engines that agree on a process, runs that bring the same events of it return the same
alerts for it. -/
theorem alertsFor_transcript (hcalls : List.Forall₂ (SameCallFor correlationId) calls₁ calls₂)
    (hfits₁ : StepsMeet FitsCapacity callStep engine₁ calls₁)
    (hfits₂ : StepsMeet FitsCapacity callStep engine₂ calls₂)
    (h : AgreeOn correlationId engine₁ engine₂) :
    (transcript engine₁ calls₁).map (fun batch => alertsFor correlationId batch.2) =
      (transcript engine₂ calls₂).map (fun batch => alertsFor correlationId batch.2) := by
  induction hcalls generalizing engine₁ engine₂ with
  | nil => rfl
  | cons hcall _ ih =>
      obtain ⟨hagree, halerts⟩ := agreeOn_filled h hcall
      rw [← next_of_fits hfits₁.1, ← next_of_fits hfits₂.1] at hagree
      simp only [transcript, List.map_cons, halerts]
      rw [ih (hfits₁.2 _ rfl) (hfits₂.2 _ rfl) hagree]

/-- **Chains do not interfere.** Two runs whose calls come at the same times and bring the same
events of a process return the same alerts for it, call by call, whatever the events of the other
processes are, if neither run has to evict a chain. -/
theorem chains_do_not_interfere (correlationId : String) (calls₁ calls₂ : List IngestCall)
    (hcalls : List.Forall₂ (SameCallFor correlationId) calls₁ calls₂)
    (hfits₁ : NeverEvicts calls₁) (hfits₂ : NeverEvicts calls₂) :
    (transcript .initial calls₁).map (fun batch => alertsFor correlationId batch.2) =
      (transcript .initial calls₂).map (fun batch => alertsFor correlationId batch.2) :=
  alertsFor_transcript hcalls hfits₁ hfits₂ (AgreeOn.refl correlationId .initial)

/-- Another process injects code. -/
def sampleInjection : SysmonEvent where
  eventId := 8
  occurredAt := "2026-08-08T12:00:01Z"
  fields := Table.collect [("SourceProcessGuid", "B"), ("SourceImage", "C:\\Users\\me\\other.exe")]

/-- `chains_do_not_interfere` where another process injects between the events of the first. -/
theorem chains_do_not_interfere_sample :
    (transcript .initial [sampleAccessCall, sampleConnectionCall]).map
        (fun batch => alertsFor "sysmon-A" batch.2) =
      (transcript .initial
          [⟨default, 0, [sampleAccess, sampleInjection]⟩, sampleConnectionCall]).map
        (fun batch => alertsFor "sysmon-A" batch.2) :=
  chains_do_not_interfere "sysmon-A" _ _
    (.cons ⟨rfl, rfl⟩ (.cons ⟨rfl, rfl⟩ .nil))
    (neverEvicts_of_length_le (by decide)) (neverEvicts_of_length_le (by decide))

end runs

end OpenGuard.Service
