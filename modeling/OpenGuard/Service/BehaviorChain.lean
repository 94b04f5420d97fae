import OpenGuard.Lib.IpAddr
import OpenGuard.Lib.Window
import OpenGuard.Windows.Sysmon
import Mathlib.Data.List.MinMax

/-!
# The behaviour-chain engine

The engine sorts Sysmon events into signals, keeps for each process the newest signals of the last
ten minutes, and reports a rule when the signals it requires are all held. Times are nanoseconds
of the monotonic clock.

* `ingestAt`: one batch of events.
* `mem_matchingRules_iff`: a rule matches when each signal it requires is held.
* `exists_split_of_mem_ingestEvents`: an alert of a batch comes from one of its events, and
  `mem_ingestEvent_alerts` says what that alert is.
-/

namespace OpenGuard.Service

open OpenGuard.Lib OpenGuard.Domain OpenGuard.Windows

/-- Source: `behavior_chain.rs`, `CHAIN_WINDOW` -/
def chainWindow : ℕ := 10 * 60 * 1000000000

/-- Source: `behavior_chain.rs`, `ALERT_COOLDOWN` -/
def alertCooldown : ℕ := 60 * 60 * 1000000000

/-- Source: `behavior_chain.rs`, `MAXIMUM_CHAINS` -/
def maximumChains : ℕ := 4096

/-- Source: `behavior_chain.rs`, `MAXIMUM_SIGNALS_PER_CHAIN` -/
def maximumSignalsPerChain : ℕ := 32

/-- Source: `behavior_chain.rs`, `BehaviorAlert` -/
structure BehaviorAlert where
  eventType : String
  severity : Severity
  title : String
  detail : String
  processId : Option UInt32
  path : String
  remoteAddress : String
  correlationId : String
  deriving DecidableEq, Inhabited

/-- Source: `behavior_chain.rs`, `SignalKind` -/
inductive SignalKind where
  | credentialAccess
  | injection
  | fileDrop
  | persistence
  | network
  deriving DecidableEq, Inhabited

/-- Source: `behavior_chain.rs`, `Signal` -/
structure Signal where
  kind : SignalKind
  observedAt : ℕ
  detail : String
  remoteAddress : String
  deriving DecidableEq, Inhabited

/-- Source: `behavior_chain.rs`, `Chain` -/
structure Chain where
  processId : Option UInt32
  path : String
  lastSeen : ℕ
  signals : List Signal
  deriving DecidableEq, Inhabited

/-! ## Rules -/

/-- Source: `behavior_chain.rs`, `Rule` -/
inductive Rule where
  | credentialExfiltration
  | injectionBeacon
  | dropPersistenceBeacon
  deriving DecidableEq, Inhabited

namespace Rule

/-- Source: `behavior_chain.rs`, `Rule::event_type` -/
def eventType : Rule → String
  | credentialExfiltration => "credential_access_network_chain"
  | injectionBeacon => "injection_network_chain"
  | dropPersistenceBeacon => "drop_persistence_network_chain"

/-- Source: `behavior_chain.rs`, `Rule::severity` -/
def severity : Rule → Severity
  | credentialExfiltration => .critical
  | injectionBeacon => .critical
  | dropPersistenceBeacon => .high

/-- Source: `behavior_chain.rs`, `Rule::title` -/
def title : Rule → String
  | credentialExfiltration => "Credential access followed by outbound activity"
  | injectionBeacon => "Process injection followed by outbound activity"
  | dropPersistenceBeacon => "File drop, persistence, and outbound activity"

/-- Source: `behavior_chain.rs`, `Rule::mitre` -/
def mitre : Rule → String
  | credentialExfiltration => "T1003.001 + T1041"
  | injectionBeacon => "T1055 + T1071"
  | dropPersistenceBeacon => "T1105 + T1547/T1546 + T1071"

/-- The signals a rule asks for. -/
def requires : Rule → List SignalKind
  | credentialExfiltration => [.credentialAccess, .network]
  | injectionBeacon => [.injection, .network]
  | dropPersistenceBeacon => [.fileDrop, .persistence, .network]

theorem eventType_injective : Function.Injective eventType := by
  intro rule₁ rule₂ h
  cases rule₁ <;> cases rule₂ <;> first | rfl | exact absurd h (by decide)

/-- Every rule asks for network activity. -/
theorem network_mem_requires (rule : Rule) : .network ∈ rule.requires := by
  cases rule <;> decide

end Rule

/-! ## Classification -/

/-- Source: `behavior_chain.rs`, `is_lsass` -/
def isLsass (path : String) : Bool :=
  eqIgnoreAsciiCase (rsplitNext (fun c => c == '\\' || c == '/') path) "lsass.exe"

/-- Source: `behavior_chain.rs`, `has_memory_read_access` -/
def hasMemoryReadAccess (value : String) : Bool :=
  let trimmed := trim value
  let parsed := (((stripPrefix trimmed "0x").or (stripPrefix trimmed "0X")).bind
    (u32FromStrRadix · 16)).or (parseU32 trimmed)
  parsed.any fun mask => mask &&& (0x0010 ||| 0x0020 ||| 0x0008) != 0

/-- Source: `behavior_chain.rs`, `is_executable_drop` -/
def isExecutableDrop (path : String) : Bool :=
  let normalized := toAsciiLowercase (replaceChar path '/' '\\')
  let userWritable :=
    ["\\users\\", "\\programdata\\", "\\windows\\temp\\", "\\recycle.bin\\"].any
      (containsStr normalized)
  let executable :=
    [".exe", ".dll", ".scr", ".com", ".msi", ".ps1", ".bat", ".cmd", ".vbs", ".js", ".hta"].any
      (endsWith normalized)
  userWritable && executable

/-- Source: `behavior_chain.rs`, `is_persistence_target` -/
def isPersistenceTarget (target : String) : Bool :=
  let normalized := toAsciiLowercase (replaceChar target '/' '\\')
  ["\\software\\microsoft\\windows\\currentversion\\run",
    "\\software\\microsoft\\windows nt\\currentversion\\winlogon",
    "\\system\\currentcontrolset\\services\\",
    "\\image file execution options\\"].any (containsStr normalized)

/-- Source: `behavior_chain.rs`, `is_external_dns_query` -/
def isExternalDnsQuery (query : String) : Bool :=
  let normalized := toAsciiLowercase (trimEndMatches '.' query)
  let suffix := rsplitOnceSnd '.' normalized
  normalized != "" && normalized != "localhost" &&
    !(suffix == some "local" || suffix == some "lan")

/-- Source: `behavior_chain.rs`, `is_non_public_v4` -/
def isNonPublicV4 (value : Ipv4Addr) : Bool :=
  value.isPrivate || value.isLoopback || value.isLinkLocal || value.isUnspecified ||
    value.isBroadcast || value.a == 0

/-- Source: `behavior_chain.rs`, `is_external_address` -/
def isExternalAddress (address : String) : Bool :=
  match parseIpAddr address with
  | some (.v4 value) => !isNonPublicV4 value
  | some (.v6 value) =>
      !(value.isLoopback || value.isUnspecified || value.isUniqueLocal || value.isUnicastLinkLocal)
  | none => false

/-- Source: `behavior_chain.rs`, `classify` -/
def classify (event : SysmonEvent) : Option SignalKind :=
  if event.eventId = 10 ∧ isLsass event.targetPath ∧
      hasMemoryReadAccess (event.field "GrantedAccess") then some .credentialAccess
  else if event.eventId = 8 ∨ event.eventId = 25 then some .injection
  else if event.eventId = 11 ∧ isExecutableDrop event.targetPath then some .fileDrop
  else if (12 ≤ event.eventId ∧ event.eventId ≤ 14) ∧ isPersistenceTarget event.targetPath then
    some .persistence
  else if 19 ≤ event.eventId ∧ event.eventId ≤ 21 then some .persistence
  else if event.eventId = 3 ∧ isExternalAddress (event.field "DestinationIp") then some .network
  else if event.eventId = 22 ∧ isExternalDnsQuery (event.field "QueryName") then some .network
  else none

/-- Source: `behavior_chain.rs`, `stable_correlation_id` -/
def stableCorrelationId (event : SysmonEvent) : Option String :=
  (((["ProcessGuid", "SourceProcessGuid"].map event.field).find? (· != "")).map
      ("sysmon-" ++ ·)).or
    ((event.processId.filter (· != 0)).map fun pid => "sysmon-pid-" ++ toString pid.toNat)

/-- The rules that match when `has` tells which signals are held.
Source: `behavior_chain.rs`, `matching_rules` -/
def rulesFor (has : SignalKind → Bool) : List Rule :=
  let rules := if has .credentialAccess && has .network then [.credentialExfiltration] else []
  let rules := if has .injection && has .network then rules ++ [.injectionBeacon] else rules
  if has .fileDrop && has .persistence && has .network then rules ++ [.dropPersistenceBeacon]
  else rules

/-- Source: `behavior_chain.rs`, `matching_rules` -/
def matchingRules (chain : Chain) : List Rule :=
  rulesFor fun kind => chain.signals.any fun signal => signal.kind == kind

/-- Source: `behavior_chain.rs`, `build_alert` -/
def buildAlert (rule : Rule) (correlationId : String) (chain : Chain) : BehaviorAlert :=
  let evidence := joinWith " -> " (chain.signals.map (·.detail))
  let remoteAddress :=
    ((chain.signals.reverse.find? (·.kind == .network)).map (·.remoteAddress)).getD ""
  { eventType := rule.eventType
    severity := rule.severity
    title := rule.title
    detail := "Correlated within a 10-minute window; MITRE " ++ rule.mitre ++ "; evidence: " ++
      evidence
    processId := chain.processId
    path := chain.path
    remoteAddress
    correlationId }

theorem mem_rulesFor_iff {has : SignalKind → Bool} {rule : Rule} :
    rule ∈ rulesFor has ↔ ∀ kind ∈ rule.requires, has kind = true := by
  unfold rulesFor
  dsimp only
  cases rule <;> simp only [Rule.requires] <;> split_ifs <;> simp_all

/-- A rule matches when each signal it requires is held. -/
theorem mem_matchingRules_iff {rule : Rule} {chain : Chain} :
    rule ∈ matchingRules chain ↔
      ∀ kind ∈ rule.requires, ∃ signal ∈ chain.signals, signal.kind = kind := by
  rw [matchingRules, mem_rulesFor_iff]
  simp

/-! ## Ingesting a batch -/

/-- Source: `behavior_chain.rs`, `BehaviorChainEngine` -/
structure BehaviorChainEngine where
  chains : Table String Chain
  reported : Table (String × Rule) ℕ

namespace BehaviorChainEngine

/-- An engine that has seen nothing. -/
def initial : BehaviorChainEngine := ⟨∅, ∅⟩

/-- Source: `behavior_chain.rs`, `BehaviorChainEngine::prune` -/
def prune (now : ℕ) (engine : BehaviorChainEngine) : BehaviorChainEngine where
  chains := Table.filterMap
    (fun _ chain =>
      let signals := chain.signals.filter fun signal => now - signal.observedAt ≤ chainWindow
      if signals = [] then none else some { chain with signals })
    engine.chains
  reported := engine.reported.retain fun _ observedAt => now - observedAt ≤ alertCooldown

/-- The loop over the rules that match.
Source: `behavior_chain.rs`, `BehaviorChainEngine::ingest_at` -/
def report (now : ℕ) (correlationId : String) (chain : Chain) :
    List Rule → Table (String × Rule) ℕ → Table (String × Rule) ℕ × List BehaviorAlert
  | [], reported => (reported, [])
  | rule :: rest, reported =>
      if (reported.lookup (correlationId, rule)).any (fun last => now - last < alertCooldown) then
        report now correlationId chain rest reported
      else
        let (reported, alerts) :=
          report now correlationId chain rest (reported.insert (correlationId, rule) now)
        (reported, buildAlert rule correlationId chain :: alerts)

/-- The chain of a process after a signal of an event.
Source: `behavior_chain.rs`, `BehaviorChainEngine::ingest_at` -/
def observe (now : ℕ) (event : SysmonEvent) (kind : SignalKind) (old : Option Chain) : Chain :=
  let chain := old.getD ⟨event.processId, event.image, now, []⟩
  { processId := event.processId.or chain.processId
    path := if event.image = "" then chain.path else event.image
    lastSeen := now
    signals := pushBack maximumSignalsPerChain chain.signals
      ⟨kind, now, event.detail, event.remoteAddress⟩ }

/-- One turn of the loop over the events.
Source: `behavior_chain.rs`, `BehaviorChainEngine::ingest_at` -/
def ingestEvent (now : ℕ) (engine : BehaviorChainEngine) (event : SysmonEvent) :
    BehaviorChainEngine × List BehaviorAlert :=
  match classify event with
  | none => (engine, [])
  | some kind =>
      match stableCorrelationId event with
      | none => (engine, [])
      | some correlationId =>
          let chain := observe now event kind (engine.chains.lookup correlationId)
          let (reported, alerts) :=
            report now correlationId chain (matchingRules chain) engine.reported
          (⟨engine.chains.insert correlationId chain, reported⟩, alerts)

/-- The loop over the events of a batch.
Source: `behavior_chain.rs`, `BehaviorChainEngine::ingest_at` -/
def ingestEvents (now : ℕ) :
    BehaviorChainEngine → List SysmonEvent → BehaviorChainEngine × List BehaviorAlert
  | engine, [] => (engine, [])
  | engine, event :: rest =>
      let (engine, alerts) := ingestEvent now engine event
      let (engine, more) := ingestEvents now engine rest
      (engine, alerts ++ more)

/-- The chains that are evicted, oldest first; `fuel` bounds the turns of the loop, and each turn
removes a chain.
Source: `behavior_chain.rs`, `BehaviorChainEngine::enforce_capacity` -/
def evict (order : IterOrder String Chain) : ℕ → BehaviorChainEngine → BehaviorChainEngine
  | 0, engine => engine
  | fuel + 1, engine =>
      if maximumChains < engine.chains.size then
        match (order.entries engine.chains).argmin (fun entry => entry.2.lastSeen) with
        | none => engine
        | some oldest =>
            evict order fuel
              ⟨engine.chains.erase oldest.1, engine.reported.retain fun key _ => key.1 != oldest.1⟩
      else engine

/-- Source: `behavior_chain.rs`, `BehaviorChainEngine::enforce_capacity` -/
def enforceCapacity (order : IterOrder String Chain) (engine : BehaviorChainEngine) :
    BehaviorChainEngine := evict order engine.chains.size engine

/-- Source: `behavior_chain.rs`, `BehaviorChainEngine::ingest_at` -/
def ingestAt (order : IterOrder String Chain) (events : List SysmonEvent) (now : ℕ)
    (engine : BehaviorChainEngine) : BehaviorChainEngine × List BehaviorAlert :=
  let (engine, alerts) := ingestEvents now (engine.prune now) events
  (engine.enforceCapacity order, alerts)

end BehaviorChainEngine

/-! ## Where alerts come from -/

section alerts

variable {now : ℕ} {engine : BehaviorChainEngine} {event : SysmonEvent}
  {events rest : List SysmonEvent} {alert : BehaviorAlert} {correlationId : String}
  {chain : Chain} {rules : List Rule} {reported : Table (String × Rule) ℕ}

open BehaviorChainEngine

theorem mem_report_alerts (h : alert ∈ (report now correlationId chain rules reported).2) :
    ∃ rule ∈ rules, alert = buildAlert rule correlationId chain := by
  induction rules generalizing reported with
  | nil => cases h
  | cons rule rules ih =>
      unfold report at h
      split at h
      · obtain ⟨rule', hmem, halert⟩ := ih h
        exact ⟨rule', List.mem_cons_of_mem rule hmem, halert⟩
      · rcases List.mem_cons.mp h with rfl | h
        · exact ⟨rule, List.mem_cons_self, rfl⟩
        · obtain ⟨rule', hmem, halert⟩ := ih h
          exact ⟨rule', List.mem_cons_of_mem rule hmem, halert⟩

/-- An alert of an event is for the process of the event, for a rule that matches its chain. -/
theorem mem_ingestEvent_alerts (h : alert ∈ (ingestEvent now engine event).2) :
    ∃ rule chain, stableCorrelationId event = some alert.correlationId ∧
      (ingestEvent now engine event).1.chains.lookup alert.correlationId = some chain ∧
      rule ∈ matchingRules chain ∧ alert = buildAlert rule alert.correlationId chain := by
  unfold ingestEvent at h ⊢
  cases hkind : classify event with
  | none => simp [hkind] at h
  | some kind =>
      cases hid : stableCorrelationId event with
      | none => simp [hkind, hid] at h
      | some correlationId =>
          simp only [hkind, hid] at h
          obtain ⟨rule, hrule, rfl⟩ := mem_report_alerts h
          exact ⟨rule, _, rfl, AList.lookup_insert _, hrule, rfl⟩

theorem ingestEvents_append :
    ingestEvents now engine (events ++ rest) =
      ((ingestEvents now (ingestEvents now engine events).1 rest).1,
        (ingestEvents now engine events).2 ++
          (ingestEvents now (ingestEvents now engine events).1 rest).2) := by
  induction events generalizing engine with
  | nil => rfl
  | cons event events ih =>
      simp only [List.cons_append, ingestEvents]
      rw [ih, List.append_assoc]

theorem ingestEvents_singleton :
    ingestEvents now engine [event] = ingestEvent now engine event := by
  simp [ingestEvents]

/-- An alert of a batch comes from one of its events. -/
theorem exists_split_of_mem_ingestEvents (h : alert ∈ (ingestEvents now engine events).2) :
    ∃ before event after, events = before ++ event :: after ∧
      alert ∈ (ingestEvent now (ingestEvents now engine before).1 event).2 := by
  induction events generalizing engine with
  | nil => cases h
  | cons event events ih =>
      simp only [ingestEvents] at h
      rcases List.mem_append.mp h with h | h
      · exact ⟨[], event, events, rfl, h⟩
      · obtain ⟨before, event', after, rfl, halert⟩ := ih h
        exact ⟨event :: before, event', after, rfl, halert⟩

end alerts

end OpenGuard.Service
