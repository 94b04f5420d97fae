import Mathlib
import OpenGuard.Domain.Models
import OpenGuard.Lib.Table
import OpenGuard.Lib.Text
import OpenGuard.Service.Baseline
import OpenGuard.Storage.Store

/-!
# Beacons

In every cycle, the protection loop counts for each key (the identity of a suspicious executable, a
remote address and a remote port) the endpoints of the snapshot that have it, and forgets the keys
without one. When a count reaches eight for the first time, an event is recorded that speaks of
eight cycles.

* `beaconRun_events_nodup`: over a whole run, a key gets at most one event.
* `CountsBounded`: the invariant for the counts. Where a cycle has at most one endpoint for each
  key, a count is at most the number of cycles that the key has been active without a break.
* `beacon_means_eight_cycles`: then an event means eight consecutive cycles.
-/

namespace OpenGuard.Service

open OpenGuard.Lib OpenGuard.Domain OpenGuard.Storage

/-! ## The model -/

/-- What a flow is counted under. -/
structure BeaconKey where
  identity : String
  remoteAddress : String
  remotePort : UInt16
  deriving DecidableEq, Inhabited

/-- The string that the tables hold for a key.
Source: `main.rs`, `correlate_beacons` -/
def BeaconKey.text (key : BeaconKey) : String :=
  key.identity ++ "|" ++ key.remoteAddress ++ "|" ++ toString key.remotePort.toNat

/-- One protection cycle: its snapshot, the identities held suspicious then, the clock, and how
`record_event` fares for a key. -/
structure BeaconCycle where
  snapshot : SystemSnapshot
  suspiciousIdentities : Finset String
  now : Clock
  fault : String → Fault

/-- What the loop keeps between cycles: the counts, and the keys it has reported. -/
structure BeaconState where
  counts : Table String UInt8
  reported : Finset String

/-- Source: `main.rs`, `run_protection_loop` -/
def BeaconState.initial : BeaconState := ⟨∅, ∅⟩

/-- The processes by their id; of several with one id, the last one.
Source: `main.rs`, `correlate_beacons` -/
def processesById (snapshot : SystemSnapshot) : Table UInt32 ProcessRecord :=
  Table.collect (snapshot.processes.map fun process => (process.pid, process))

/-- An endpoint that is counted, with its process. -/
structure CountedEndpoint where
  endpoint : NetworkEndpoint
  process : ProcessRecord

/-- The key of a counted endpoint. -/
def CountedEndpoint.key (counted : CountedEndpoint) : BeaconKey where
  identity := counted.process.identity
  remoteAddress := counted.endpoint.remoteAddress
  remotePort := counted.endpoint.remotePort

/-- The endpoints that pass the filters of the loop: not local, with a remote port, and of a known
process of suspicious identity.
Source: `main.rs`, `correlate_beacons` -/
def countedEndpoints (cycle : BeaconCycle) : List CountedEndpoint :=
  let processes := processesById cycle.snapshot
  (cycle.snapshot.endpoints.filter fun endpoint =>
      endpoint.remotePort != 0 && endpoint.reputation != "local").filterMap fun endpoint =>
    match processes.lookup endpoint.pid with
    | none => none
    | some process =>
        if process.identity ∈ cycle.suspiciousIdentities then some ⟨endpoint, process⟩ else none

/-- Source: `main.rs`, `correlate_beacons` -/
def beaconEvent (now : Clock) (counted : CountedEndpoint) : SecurityEvent where
  eventType := "command_and_control_beacon"
  severity := if counted.endpoint.reputation = "malicious" then .critical else .high
  title := "Repeated outbound activity: " ++ counted.process.name
  detail := "MITRE T1071: suspicious executable maintained an external flow to "
    ++ counted.endpoint.remoteAddress ++ ":" ++ toString counted.endpoint.remotePort.toNat
    ++ " across at least eight protection cycles; reputation=" ++ counted.endpoint.reputation
  processId := some counted.process.pid
  path := counted.process.path
  createdAt := now.unixTimestamp
  resolved := false

/-- `u8::saturating_add(1)`. -/
def saturatingSucc (count : UInt8) : UInt8 := if count.toNat < 255 then count + 1 else count

/-- The variables of the loop over the endpoints; `events` are those committed to the database. -/
structure BeaconLoop where
  counts : Table String UInt8
  reported : Finset String
  events : List (BeaconKey × SecurityEvent)

/-- The body of the loop.
Source: `main.rs`, `correlate_beacons` -/
def countEndpoint (cycle : BeaconCycle) (state : BeaconLoop) (counted : CountedEndpoint) :
    BeaconLoop :=
  let key := counted.key.text
  let count := saturatingSucc ((state.counts.lookup key).getD 0)
  let counts := state.counts.insert key count
  if count < 8 ∨ key ∈ state.reported then { state with counts := counts }
  else
    let event := beaconEvent cycle.now counted
    { counts := counts
      reported := insert key state.reported
      events :=
        match cycle.fault key with
        | some _ => state.events
        | none => state.events ++ [(counted.key, event)] }

/-- The new state, and the events that the cycle commits. A key is reported once in a run, so an
outcome of `record_event` for each key stands for every order of failing calls.
Source: `main.rs`, `correlate_beacons` -/
def correlateBeacons (cycle : BeaconCycle) (state : BeaconState) :
    BeaconState × List (BeaconKey × SecurityEvent) :=
  let counted := countedEndpoints cycle
  let active := counted.map fun counted => counted.key.text
  let result := counted.foldl (countEndpoint cycle) ⟨state.counts, state.reported, []⟩
  (⟨result.counts.retain fun key _ => active.contains key, result.reported⟩, result.events)

/-- A run of cycles: the last state, and all events committed on the way. -/
def beaconRun (cycles : List BeaconCycle) : BeaconState × List (BeaconKey × SecurityEvent) :=
  cycles.foldl (fun run cycle =>
    let (state, events) := correlateBeacons cycle run.1
    (state, run.2 ++ events)) (.initial, [])

theorem beaconRun_concat (cycles : List BeaconCycle) (cycle : BeaconCycle) :
    beaconRun (cycles ++ [cycle]) =
      ((correlateBeacons cycle (beaconRun cycles).1).1,
        (beaconRun cycles).2 ++ (correlateBeacons cycle (beaconRun cycles).1).2) := by
  unfold beaconRun
  rw [List.foldl_append, List.foldl_cons, List.foldl_nil]

/-! ## One event per key -/

/-- Every key with an event is reported, and has one event only. -/
def ReportedOnce (reported : Finset String) (events : List (BeaconKey × SecurityEvent)) : Prop :=
  (∀ e ∈ events, e.1.text ∈ reported) ∧ (events.map fun e => e.1.text).Nodup

section once

variable {cycle : BeaconCycle} {earlier : List (BeaconKey × SecurityEvent)}

theorem reportedOnce_countEndpoint {state : BeaconLoop} (counted : CountedEndpoint)
    (h : ReportedOnce state.reported (earlier ++ state.events)) :
    ReportedOnce (countEndpoint cycle state counted).reported
      (earlier ++ (countEndpoint cycle state counted).events) := by
  unfold countEndpoint
  dsimp only
  split_ifs with hskip
  · exact h
  · push Not at hskip
    have hgrow : ∀ e ∈ earlier ++ state.events,
        e.1.text ∈ insert counted.key.text state.reported :=
      fun e he => Finset.mem_insert_of_mem (h.1 e he)
    cases cycle.fault counted.key.text with
    | some error => exact ⟨hgrow, h.2⟩
    | none =>
        dsimp only
        rw [← List.append_assoc]
        constructor
        · intro e he
          rcases List.mem_append.mp he with he | he
          · exact hgrow e he
          · rw [List.mem_singleton.mp he]
            exact Finset.mem_insert_self _ _
        · rw [List.map_append, List.nodup_append]
          refine ⟨h.2, List.nodup_singleton _, ?_⟩
          intro text htext other hother heq
          obtain ⟨e, he, rfl⟩ := List.mem_map.mp htext
          rw [List.map_singleton, List.mem_singleton] at hother
          exact hskip.2 (hother ▸ heq ▸ h.1 e he)

theorem reportedOnce_foldl (l : List CountedEndpoint) {state : BeaconLoop}
    (h : ReportedOnce state.reported (earlier ++ state.events)) :
    ReportedOnce (l.foldl (countEndpoint cycle) state).reported
      (earlier ++ (l.foldl (countEndpoint cycle) state).events) := by
  induction l generalizing state with
  | nil => exact h
  | cons counted rest ih => exact ih (reportedOnce_countEndpoint counted h)

theorem reportedOnce_beaconRun (cycles : List BeaconCycle) :
    ReportedOnce (beaconRun cycles).1.reported (beaconRun cycles).2 := by
  induction cycles using List.reverseRecOn with
  | nil => exact ⟨fun e he => absurd he List.not_mem_nil, List.nodup_nil⟩
  | append_singleton cycles cycle ih =>
      rw [beaconRun_concat]
      refine reportedOnce_foldl _ ?_
      rw [List.append_nil]
      exact ih

/-- Over a whole run, a key gets at most one event, whatever the cycles are. -/
theorem beaconRun_events_nodup (cycles : List BeaconCycle) :
    ((beaconRun cycles).2.map Prod.fst).Nodup := by
  have htexts := (reportedOnce_beaconRun cycles).2
  refine List.Nodup.of_map BeaconKey.text ?_
  rw [List.map_map]
  exact htexts

end once

/-! ## Counts and cycles -/

/-- The keys of the endpoints that a cycle counts, as often as it counts them. -/
def activeTexts (cycle : BeaconCycle) : List String :=
  (countedEndpoints cycle).map fun counted => counted.key.text

/-- The number of last cycles in which a key was active without a break. -/
def streak (text : String) (cycles : List BeaconCycle) : ℕ :=
  (cycles.reverse.takeWhile fun cycle => (activeTexts cycle).contains text).length

/-- No count exceeds the cycles that its key has been active. -/
def CountsBounded (cycles : List BeaconCycle) (counts : Table String UInt8) : Prop :=
  ∀ text count, counts.lookup text = some count → count.toNat ≤ streak text cycles

/-- The cycle has an endpoint that is not local, has the remote address and port of the key, a
port other than 0, and belongs to a process with the identity of the key. -/
def HasFlow (cycle : BeaconCycle) (key : BeaconKey) : Prop :=
  ∃ endpoint ∈ cycle.snapshot.endpoints, ∃ process ∈ cycle.snapshot.processes,
    endpoint.remotePort ≠ 0 ∧ endpoint.reputation ≠ "local" ∧
      endpoint.remoteAddress = key.remoteAddress ∧ endpoint.remotePort = key.remotePort ∧
      process.pid = endpoint.pid ∧ process.identity = key.identity

/-- A cycle counts at most one endpoint for each key, and its addresses leave the separator of the
keys alone. -/
structure SingleFlow (cycle : BeaconCycle) : Prop where
  nodup : (activeTexts cycle).Nodup
  separated : ∀ counted ∈ countedEndpoints cycle, '|' ∉ counted.endpoint.remoteAddress.toList

section counts

variable {cycle : BeaconCycle} {cycles : List BeaconCycle} {state : BeaconLoop}
  {l : List CountedEndpoint}

theorem toNat_saturatingSucc_le (count : UInt8) :
    (saturatingSucc count).toNat ≤ count.toNat + 1 := by
  unfold saturatingSucc
  split_ifs with h
  · rw [UInt8.toNat_add]
    exact Nat.mod_le _ _
  · omega

/-- The digits of a port do not contain the separator. -/
theorem separator_notMem_port (port : UInt16) : '|' ∉ (toString port.toNat).toList := by
  intro hmem
  rw [Nat.toString_eq_repr, Nat.toList_repr] at hmem
  exact absurd (Nat.isDigit_of_mem_toDigits (by decide) (by decide) hmem) (by decide)

/-- Keys whose addresses do not contain the separator have different texts. -/
theorem BeaconKey.text_injective {key other : BeaconKey}
    (hkey : '|' ∉ key.remoteAddress.toList) (hother : '|' ∉ other.remoteAddress.toList)
    (h : key.text = other.text) : key = other := by
  have hlist := congrArg (fun s : String => s.toList.reverse) h
  unfold BeaconKey.text at hlist
  simp only [String.toList_append, List.reverse_append, List.append_assoc] at hlist
  have hbar : "|".toList.reverse = ['|'] := rfl
  simp only [hbar, List.cons_append, List.nil_append] at hlist
  have hnot (text : String) (hmem : '|' ∉ text.toList) : '|' ∉ text.toList.reverse :=
    fun hrev => hmem (List.mem_reverse.mp hrev)
  obtain ⟨hport, hrest⟩ := split_at_separator (hnot _ (separator_notMem_port key.remotePort))
    (hnot _ (separator_notMem_port other.remotePort)) hlist
  obtain ⟨haddress, hidentity⟩ := split_at_separator (hnot _ hkey) (hnot _ hother) hrest
  cases key
  cases other
  simp only [List.reverse_inj, String.toList_inj, Nat.toString_eq_repr, Nat.repr_inj,
    UInt16.toNat_inj] at hport haddress hidentity
  rw [hport, haddress, hidentity]

theorem counts_countEndpoint (counted : CountedEndpoint) :
    (countEndpoint cycle state counted).counts =
      state.counts.insert counted.key.text
        (saturatingSucc ((state.counts.lookup counted.key.text).getD 0)) := by
  unfold countEndpoint
  dsimp only
  split_ifs <;> rfl

/-- With one endpoint for each key, the loop adds one to the count of each active key. -/
theorem lookup_counts_foldl (hnodup : (l.map fun counted => counted.key.text).Nodup)
    (text : String) :
    (l.foldl (countEndpoint cycle) state).counts.lookup text =
      if text ∈ l.map fun counted => counted.key.text then
        some (saturatingSucc ((state.counts.lookup text).getD 0))
      else state.counts.lookup text := by
  induction l generalizing state with
  | nil => rfl
  | cons counted rest ih =>
      rw [List.map_cons, List.nodup_cons] at hnodup
      rw [List.foldl_cons, ih hnodup.2, counts_countEndpoint, List.map_cons]
      by_cases htext : text = counted.key.text
      · subst htext
        rw [if_neg hnodup.1, AList.lookup_insert, if_pos List.mem_cons_self]
      · simp only [AList.lookup_insert_ne htext, List.mem_cons, htext, false_or]

/-- With one endpoint for each key, an event of the loop is for a key whose count was at least
seven before the loop. -/
theorem events_foldl (hnodup : (l.map fun counted => counted.key.text).Nodup)
    {e : BeaconKey × SecurityEvent} (h : e ∈ (l.foldl (countEndpoint cycle) state).events) :
    e ∈ state.events ∨ ∃ counted ∈ l, e.1 = counted.key ∧
      7 ≤ ((state.counts.lookup counted.key.text).getD 0).toNat := by
  induction l generalizing state with
  | nil => exact Or.inl h
  | cons counted rest ih =>
      rw [List.map_cons, List.nodup_cons] at hnodup
      rcases ih hnodup.2 h with hnew | ⟨other, hother, hkey, hcount⟩
      · unfold countEndpoint at hnew
        dsimp only at hnew
        split_ifs at hnew with hskip
        · exact Or.inl hnew
        · push Not at hskip
          have hseven : 7 ≤ ((state.counts.lookup counted.key.text).getD 0).toNat := by
            have height := UInt8.le_iff_toNat_le.mp (UInt8.not_lt.mp hskip.1)
            have hsucc := toNat_saturatingSucc_le ((state.counts.lookup counted.key.text).getD 0)
            have hlit : (8 : UInt8).toNat = 8 := rfl
            omega
          cases hfault : cycle.fault counted.key.text with
          | some error =>
              rw [hfault] at hnew
              exact Or.inl hnew
          | none =>
              rw [hfault] at hnew
              rcases List.mem_append.mp hnew with hold | hsingle
              · exact Or.inl hold
              · rw [List.mem_singleton.mp hsingle]
                exact Or.inr ⟨counted, List.mem_cons_self, rfl, hseven⟩
      · right
        refine ⟨other, List.mem_cons_of_mem counted hother, hkey, ?_⟩
        have hne : other.key.text ≠ counted.key.text := fun heq =>
          hnodup.1 (heq ▸ List.mem_map_of_mem hother)
        rwa [counts_countEndpoint, AList.lookup_insert_ne hne] at hcount

theorem streak_concat {text : String} (h : text ∈ activeTexts cycle) :
    streak text (cycles ++ [cycle]) = streak text cycles + 1 := by
  unfold streak
  rw [List.reverse_append, List.reverse_singleton, List.singleton_append,
    List.takeWhile_cons_of_pos (by simpa using h), List.length_cons]

/-- A cycle with one endpoint for each key keeps the counts bounded. -/
theorem countsBounded_correlateBeacons {state : BeaconState} (hcycle : SingleFlow cycle)
    (h : CountsBounded cycles state.counts) :
    CountsBounded (cycles ++ [cycle]) (correlateBeacons cycle state).1.counts := by
  intro text count hlookup
  unfold correlateBeacons at hlookup
  dsimp only at hlookup
  rw [Table.lookup_retain, lookup_counts_foldl hcycle.nodup, Option.filter_eq_some_iff] at hlookup
  obtain ⟨hsome, hactive⟩ := hlookup
  have hmem : text ∈ (countedEndpoints cycle).map fun counted => counted.key.text := by
    simpa using hactive
  rw [if_pos hmem, Option.some_inj] at hsome
  rw [streak_concat hmem, ← hsome]
  refine (toNat_saturatingSucc_le _).trans (Nat.succ_le_succ ?_)
  cases hold : state.counts.lookup text with
  | none => exact Nat.zero_le _
  | some old => exact h text old hold

theorem countsBounded_beaconRun (h : ∀ cycle ∈ cycles, SingleFlow cycle) :
    CountsBounded cycles (beaconRun cycles).1.counts := by
  induction cycles using List.reverseRecOn with
  | nil =>
      intro text count hlookup
      exact absurd hlookup (by simp [beaconRun, BeaconState.initial])
  | append_singleton cycles cycle ih =>
      rw [beaconRun_concat]
      refine countsBounded_correlateBeacons (h cycle (by simp)) (ih fun c hc => ?_)
      exact h c (List.mem_append_left _ hc)

theorem hasFlow_of_mem {counted : CountedEndpoint} (h : counted ∈ countedEndpoints cycle) :
    HasFlow cycle counted.key := by
  obtain ⟨endpoint, hendpoint, hsome⟩ := List.mem_filterMap.mp h
  obtain ⟨hmem, hpasses⟩ := List.mem_filter.mp hendpoint
  cases hprocess : (processesById cycle.snapshot).lookup endpoint.pid with
  | none => simp [hprocess] at hsome
  | some process =>
      simp only [hprocess, Option.ite_none_right_eq_some, Option.some_inj] at hsome
      obtain ⟨-, rfl⟩ := hsome
      unfold processesById at hprocess
      rw [Table.lookup_collect, Option.map_eq_some_iff] at hprocess
      obtain ⟨found, hfound, rfl⟩ := hprocess
      have hin := List.mem_reverse.mp (List.mem_of_find?_eq_some hfound)
      have hpid : found.1 = endpoint.pid := by simpa using List.find?_some hfound
      obtain ⟨process, hmemProcess, rfl⟩ := List.mem_map.mp hin
      simp only [Bool.and_eq_true, bne_iff_ne] at hpasses
      exact ⟨endpoint, hmem, process, hmemProcess, hpasses.1, hpasses.2, rfl, rfl, hpid, rfl⟩

/-- A streak of at least `n` cycles ends in `n` cycles in which the key is active. -/
theorem exists_recent {text : String} {n : ℕ} (h : n ≤ streak text cycles) :
    ∃ older recent, cycles = older ++ recent ∧ recent.length = n ∧
      ∀ cycle ∈ recent, text ∈ activeTexts cycle := by
  set active := cycles.reverse.takeWhile fun cycle => (activeTexts cycle).contains text
  have hprefix : active <+: cycles.reverse := List.takeWhile_prefix _
  obtain ⟨before, hbefore⟩ := (List.take_prefix n active).trans hprefix
  refine ⟨before.reverse, (active.take n).reverse, ?_, ?_, ?_⟩
  · rw [← List.reverse_append, hbefore, List.reverse_reverse]
  · rw [List.length_reverse, List.length_take]
    exact min_eq_left h
  · intro cycle hmem
    have hactive := List.mem_of_mem_take (List.mem_reverse.mp hmem)
    simpa using List.mem_takeWhile_imp hactive

/-- **A beacon event means eight cycles**, in every run whose cycles count at most one endpoint
for each key: the key has a flow in the cycle that records the event and in the seven before it.
And over any run, a key gets at most one event. -/
theorem beacon_means_eight_cycles (cycles : List BeaconCycle) :
    (∀ cycle : BeaconCycle, (∀ c ∈ cycles ++ [cycle], SingleFlow c) →
      ∀ e ∈ (correlateBeacons cycle (beaconRun cycles).1).2,
        ∃ older recent, cycles = older ++ recent ∧ recent.length = 7 ∧
          ∀ c ∈ recent ++ [cycle], HasFlow c e.1) ∧
    ((beaconRun cycles).2.map Prod.fst).Nodup := by
  refine ⟨?_, beaconRun_events_nodup cycles⟩
  intro cycle hsingle e he
  have hcycle := hsingle cycle (by simp)
  have hcycles : ∀ c ∈ cycles, SingleFlow c := fun c hc => hsingle c (List.mem_append_left _ hc)
  have hbounded := countsBounded_beaconRun hcycles
  rcases events_foldl hcycle.nodup he with hnil | ⟨counted, hcounted, hkey, hseven⟩
  · exact absurd hnil List.not_mem_nil
  · have hstreak : 7 ≤ streak counted.key.text cycles := by
      dsimp only at hseven
      cases hlookup : (beaconRun cycles).1.counts.lookup counted.key.text with
      | none => simp [hlookup] at hseven
      | some count =>
          rw [hlookup, Option.getD_some] at hseven
          exact hseven.trans (hbounded _ _ hlookup)
    obtain ⟨older, recent, hsplit, hlen, hactive⟩ := exists_recent hstreak
    refine ⟨older, recent, hsplit, hlen, ?_⟩
    intro c hc
    rw [hkey]
    rcases List.mem_append.mp hc with hc | hc
    · obtain ⟨other, hother, htext⟩ := List.mem_map.mp (hactive c hc)
      have hc' : SingleFlow c := hcycles c (hsplit ▸ List.mem_append_right older hc)
      have heq : other.key = counted.key := BeaconKey.text_injective
        (hc'.separated other hother) (hcycle.separated counted hcounted) htext
      exact heq ▸ hasFlow_of_mem hother
    · rw [List.mem_singleton.mp hc]
      exact hasFlow_of_mem hcounted

/-- A process held suspicious. -/
def beaconProcess : ProcessRecord where
  pid := 7
  parentPid := 1
  name := "agent.exe"
  path := "C:\\Temp\\agent.exe"
  signature := .untrusted
  identity := "c:\\temp\\agent.exe|1"
  isNew := true
  risk := ⟨60, .medium, []⟩

/-- A flow of that process to one remote port, from a local port. -/
def beaconEndpoint (localPort : UInt16) : NetworkEndpoint where
  protocol := "TCP"
  localAddress := "192.0.2.4"
  localPort := localPort
  remoteAddress := "203.0.113.8"
  remotePort := 443
  state := "ESTABLISHED"
  pid := 7
  processName := "agent.exe"
  processPath := "C:\\Temp\\agent.exe"
  remoteHostname := ""
  reputation := "public"

/-- A cycle with flows from some local ports. -/
def beaconCycle (localPorts : List UInt16) : BeaconCycle where
  snapshot := ⟨[beaconProcess], localPorts.map beaconEndpoint, "unix:1760000000", []⟩
  suspiciousIdentities := {beaconProcess.identity}
  now := ⟨0, 1760000000⟩
  fault _ := none

/-- `beacon_means_eight_cycles` at eight cycles with one flow, the last of which records the
event. -/
theorem beacon_means_eight_cycles_one_flow :
    let cycle := beaconCycle [50000]
    (correlateBeacons cycle (beaconRun (List.replicate 7 cycle)).1).2.length = 1 ∧
      ∀ e ∈ (correlateBeacons cycle (beaconRun (List.replicate 7 cycle)).1).2,
        ∃ older recent, List.replicate 7 cycle = older ++ recent ∧ recent.length = 7 ∧
          ∀ c ∈ recent ++ [cycle], HasFlow c e.1 := by
  have hsingle : SingleFlow (beaconCycle [50000]) := ⟨by decide, by decide⟩
  refine ⟨by decide +kernel, (beacon_means_eight_cycles _).1 _ fun c hc => ?_⟩
  have hc : c = beaconCycle [50000] := by simpa using hc
  exact hc ▸ hsingle

/-- Eight parallel flows to one port record the event in the first cycle. -/
theorem beacon_in_first_cycle :
    (correlateBeacons (beaconCycle [50000, 50001, 50002, 50003, 50004, 50005, 50006, 50007])
        .initial).2.map (fun e => e.1.text) = ["c:\\temp\\agent.exe|1|203.0.113.8|443"] ∧
      ¬ ∃ older recent : List BeaconCycle, [] = older ++ recent ∧ recent.length = 7 := by
  refine ⟨by decide +kernel, ?_⟩
  rintro ⟨older, recent, happend, hlen⟩
  rw [(List.append_eq_nil_iff.mp happend.symm).2] at hlen
  exact absurd hlen (by decide)

end counts

end OpenGuard.Service
