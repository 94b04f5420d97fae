import Mathlib.Data.Finset.Insert
import Mathlib.Data.Finset.Erase
import Mathlib.Data.List.Induction
import OpenGuard.Lib.Run
import OpenGuard.Lib.Table
import OpenGuard.Windows.Classification

/-!
# Host names

The names of remote addresses are resolved by a worker. The collector asks for the name of one address
after another, and never waits: it takes a name from the cache, or leaves the address to the worker and
goes on without a name.

* `in_flight_once`: over every interleaving, an address is pending just when it is on its way, once:
  with the worker, in the channel, or in the hands of the collector. The worker takes the addresses in
  the order in which they were sent.
* `lookUp_latest`: the cache drops entries now and then, but every answer is what the last resolution
  of the address said, as long as that is less than ten minutes old.
-/

namespace OpenGuard.Windows

open OpenGuard.Lib

/-! ## The resolver -/

/-- Ten minutes, in nanoseconds. -/
def nameLifetime : ℕ := 10 * 60 * 1000000000

/-- Source: `windows/lib.rs`, `DnsCacheEntry` -/
structure DnsCacheEntry where
  expiresAt : ℕ
  hostname : String
  deriving DecidableEq

/-- Where the worker is: it waits for an address, resolves one, or has cached its name.
Source: `windows/lib.rs`, `DnsResolver::default` -/
inductive WorkerPhase where
  | waiting
  | resolving (address : String)
  | cached (address : String)
  deriving DecidableEq

/-- Where the collector is in a call of `hostname`: it has read the clock, found nothing in the cache,
marked the address as pending, or could not send it.
Source: `windows/lib.rs`, `DnsResolver::hostname` -/
inductive LookupPhase where
  | idle
  | called (address : String) (now : ℕ)
  | missed (address : String)
  | marked (address : String)
  | refused (address : String)
  deriving DecidableEq

/-- What happened in the cache: a name was put into it, or one was looked for. -/
inductive NameEvent where
  | resolved (address hostname : String) (time : ℕ)
  | lookedUp (address : String) (now : ℕ) (hostname : Option String)
  deriving DecidableEq

/-- The resolver with its two threads; `connected` when there is a worker. The addresses that were
sent, and those that the worker is done with, are kept, and what happened in the cache, the latest
first.
Source: `windows/lib.rs`, `DnsResolver` -/
structure DnsResolver where
  cache : Table String DnsCacheEntry
  pending : Finset String
  queue : List String
  connected : Bool
  worker : WorkerPhase
  collector : LookupPhase
  clock : ℕ
  sent : List String
  settled : List String
  log : List NameEvent

/-- The clock goes on; or the collector asks for a name, looks into the cache, marks the address, sends
it, or takes the mark back; or the worker takes an address, caches its name, or takes the mark back. -/
inductive ResolverAction where
  | tick (elapsed : ℕ)
  | call (address : String)
  | lookUp
  | mark
  | send
  | forget
  | receive
  | resolve (hostname : String)
  | settle

namespace DnsResolver

/-- There is a worker if the thread could be started.
Source: `windows/lib.rs`, `DnsResolver::default` -/
def start (connected : Bool) (clock : ℕ) : DnsResolver :=
  ⟨∅, ∅, [], connected, .waiting, .idle, clock, [], [], []⟩

/-- The address that is looked up, if there is one to look up.
Source: `windows/lib.rs`, `DnsResolver::hostname` -/
def normalized (address : String) : Option String :=
  match parseIpAddr (beforeScope address) with
  | none => none
  | some value => if isUnspecified value then none else some (beforeScope address)

/-- Source: `windows/lib.rs`, `DnsResolver::hostname` -/
def evict (now : ℕ) (cache : Table String DnsCacheEntry) : Table String DnsCacheEntry :=
  if 4096 < cache.size then cache.retain fun _ entry => now < entry.expiresAt else cache

/-- Source: `windows/lib.rs`, `DnsResolver::hostname` -/
def cachedName (now : ℕ) (cache : Table String DnsCacheEntry) (address : String) : Option String :=
  ((cache.lookup address).filter fun entry => now < entry.expiresAt).map (·.hostname)

/-- One step. The channel holds 256 addresses, and refuses all when there is no worker.
Source: `windows/lib.rs`, `DnsResolver::hostname` and `DnsResolver::default` -/
def step (s : DnsResolver) : ResolverAction → Option DnsResolver
  | .tick elapsed => some { s with clock := s.clock + elapsed }
  | .call address =>
      match s.collector with
      | .idle =>
          match normalized address with
          | none => some s
          | some address => some { s with collector := .called address s.clock }
      | _ => none
  | .lookUp =>
      match s.collector with
      | .called address now =>
          let cache := evict now s.cache
          let found := cachedName now cache address
          some { s with
            cache
            collector := if found.isSome then .idle else .missed address
            log := .lookedUp address now found :: s.log }
      | _ => none
  | .mark =>
      match s.collector with
      | .missed address =>
          if address ∈ s.pending then some { s with collector := .idle }
          else some { s with pending := insert address s.pending, collector := .marked address }
      | _ => none
  | .send =>
      match s.collector with
      | .marked address =>
          if s.connected ∧ s.queue.length < 256 then
            some { s with
              queue := s.queue ++ [address]
              collector := .idle
              sent := s.sent ++ [address] }
          else some { s with collector := .refused address }
      | _ => none
  | .forget =>
      match s.collector with
      | .refused address =>
          some { s with pending := s.pending.erase address, collector := .idle }
      | _ => none
  | .receive =>
      match s.connected, s.worker, s.queue with
      | true, .waiting, address :: queue => some { s with worker := .resolving address, queue }
      | _, _, _ => none
  | .resolve hostname =>
      match s.worker with
      | .resolving address =>
          some { s with
            cache := s.cache.insert address ⟨s.clock + nameLifetime, hostname⟩
            worker := .cached address
            log := .resolved address hostname s.clock :: s.log }
      | _ => none
  | .settle =>
      match s.worker with
      | .cached address =>
          some { s with
            pending := s.pending.erase address
            worker := .waiting
            settled := s.settled ++ [address] }
      | _ => none

/-! ## Addresses on their way -/

end DnsResolver

/-- The address that the worker has. -/
def WorkerPhase.holds : WorkerPhase → List String
  | .waiting => []
  | .resolving address | .cached address => [address]

/-- The address that the collector has marked and not sent. -/
def LookupPhase.holds : LookupPhase → List String
  | .marked address | .refused address => [address]
  | _ => []

namespace DnsResolver

/-- All addresses on their way, the one that is done first in front. -/
def inFlight (s : DnsResolver) : List String := s.worker.holds ++ s.queue ++ s.collector.holds

/-- What is pending is on its way, and once. -/
structure InFlight (s : DnsResolver) : Prop where
  nodup : s.inFlight.Nodup
  pending : ∀ address, address ∈ s.pending ↔ address ∈ s.inFlight
  /-- The worker takes the addresses in the order in which they were sent. -/
  order : s.sent = s.settled ++ s.worker.holds ++ s.queue
  bounded : s.queue.length ≤ 256
  unconnected : s.connected = false → s.worker = .waiting ∧ s.queue = []

section inFlight

variable {s t : DnsResolver} {a : ResolverAction} {as : List ResolverAction} {connected : Bool}
  {clock : ℕ}

/-- A step that takes nothing up and lets nothing go. -/
theorem InFlight.congr (h : InFlight s) (hflight : t.inFlight = s.inFlight)
    (hpending : t.pending = s.pending) (horder : t.sent = t.settled ++ t.worker.holds ++ t.queue)
    (hbounded : t.queue.length ≤ 256)
    (hunconnected : t.connected = false → t.worker = .waiting ∧ t.queue = []) : InFlight t :=
  ⟨hflight ▸ h.nodup, fun address => by rw [hpending, hflight, h.pending], horder, hbounded,
    hunconnected⟩

theorem InFlight.step (h : InFlight s) (hstep : s.step a = some t) : InFlight t := by
  obtain ⟨cache, pending, queue, connected, worker, collector, clock, sent, settled, log⟩ := s
  obtain ⟨hnodup, hpending, horder, hbounded, hunconnected⟩ := h
  have hsame : InFlight ⟨cache, pending, queue, connected, worker, collector, clock, sent, settled,
    log⟩ := ⟨hnodup, hpending, horder, hbounded, hunconnected⟩
  dsimp only at hpending horder hbounded hunconnected
  cases a with
  | tick elapsed =>
      obtain rfl := Option.some.inj hstep
      exact hsame.congr rfl rfl horder hbounded hunconnected
  | call address =>
      cases collector with
      | idle =>
          simp only [DnsResolver.step] at hstep
          split at hstep
          all_goals
            obtain rfl := Option.some.inj hstep
            exact hsame.congr rfl rfl horder hbounded hunconnected
      | _ => cases hstep
  | lookUp =>
      cases collector with
      | called address now =>
          obtain rfl := Option.some.inj hstep
          refine hsame.congr ?_ rfl horder hbounded hunconnected
          simp only [inFlight]
          split_ifs <;> rfl
      | _ => cases hstep
  | mark =>
      cases collector with
      | missed address =>
          simp only [DnsResolver.step] at hstep
          split_ifs at hstep with hmem
          · obtain rfl := Option.some.inj hstep
            exact hsame.congr rfl rfl horder hbounded hunconnected
          · -- the address joins those on their way, behind all others
            obtain rfl := Option.some.inj hstep
            have hnew := mt (hpending address).mpr hmem
            simp only [inFlight, LookupPhase.holds, List.append_nil] at hnodup hpending hnew
            refine ⟨?_, fun other => ?_, horder, hbounded, hunconnected⟩
            · exact List.nodup_append.mpr ⟨hnodup, List.nodup_singleton _, by
                rintro other hother _ hlast rfl
                exact hnew (List.mem_singleton.mp hlast ▸ hother)⟩
            · simp only [inFlight, LookupPhase.holds, Finset.mem_insert, List.mem_append,
                List.mem_singleton, hpending]
              tauto
      | _ => cases hstep
  | send =>
      cases collector with
      | marked address =>
          simp only [DnsResolver.step] at hstep
          split_ifs at hstep with hroom
          · obtain rfl := Option.some.inj hstep
            refine hsame.congr ?_ rfl ?_ ?_ ?_
            · simp [inFlight, LookupPhase.holds]
            · rw [horder, List.append_assoc]
            · rw [List.length_append]
              exact hroom.2
            · intro hnone
              exact absurd hroom.1 (by simp_all)
          · obtain rfl := Option.some.inj hstep
            exact hsame.congr rfl rfl horder hbounded hunconnected
      | _ => cases hstep
  | forget =>
      cases collector with
      | refused address =>
          obtain rfl := Option.some.inj hstep
          simp only [inFlight, LookupPhase.holds] at hnodup hpending
          obtain ⟨hrest, -, hapart⟩ := List.nodup_append.mp hnodup
          refine ⟨by simpa [inFlight, LookupPhase.holds] using hrest, fun other => ?_, horder,
            hbounded, hunconnected⟩
          have hnot : address ∉ worker.holds ++ queue :=
            fun hmem => hapart address hmem address (List.mem_singleton_self _) rfl
          simp only [inFlight, LookupPhase.holds, Finset.mem_erase, hpending, List.append_nil,
            List.mem_append, List.mem_singleton] at hnot ⊢
          constructor
          · rintro ⟨hne, hmem | rfl⟩
            · exact hmem
            · exact absurd rfl hne
          · intro hmem
            exact ⟨fun heq => hnot (heq ▸ hmem), .inl hmem⟩
      | _ => cases hstep
  | receive =>
      simp only [DnsResolver.step] at hstep
      split at hstep
      · obtain rfl := Option.some.inj hstep
        refine hsame.congr ?_ rfl ?_ ?_ ?_
        · simp_all [inFlight, WorkerPhase.holds]
        · simpa [WorkerPhase.holds] using horder
        · exact Nat.le_of_succ_le (by simpa using hbounded)
        · intro hnone
          cases hnone
      · cases hstep
  | resolve hostname =>
      cases worker with
      | resolving address =>
          obtain rfl := Option.some.inj hstep
          refine hsame.congr rfl rfl horder hbounded fun hnone => ?_
          cases (hunconnected hnone).1
      | _ => cases hstep
  | settle =>
      cases worker with
      | cached address =>
          obtain rfl := Option.some.inj hstep
          simp only [inFlight, WorkerPhase.holds, List.cons_append, List.nil_append]
            at hnodup hpending
          obtain ⟨hnot, hrest⟩ := List.nodup_cons.mp hnodup
          refine ⟨by simpa [inFlight, WorkerPhase.holds] using hrest, fun other => ?_, ?_, hbounded,
            fun hnone => ⟨rfl, (hunconnected hnone).2⟩⟩
          · simp only [inFlight, WorkerPhase.holds, Finset.mem_erase, hpending, List.nil_append,
              List.mem_cons]
            constructor
            · rintro ⟨hne, rfl | hmem⟩
              · exact absurd rfl hne
              · exact hmem
            · intro hmem
              exact ⟨fun heq => hnot (heq ▸ hmem), .inr hmem⟩
          · simpa [WorkerPhase.holds] using horder
      | _ => cases hstep

theorem inFlight_start : InFlight (start connected clock) :=
  ⟨List.nodup_nil, by simp [start, inFlight, WorkerPhase.holds, LookupPhase.holds], rfl,
    Nat.zero_le _, fun _ => ⟨rfl, rfl⟩⟩

/-- **Every address is on its way at most once, and pending just as long.** -/
theorem in_flight_once (hrun : run DnsResolver.step (start connected clock) as = some s) :
    InFlight s :=
  run_invariant (fun _ _ _ h hstep => h.step hstep) inFlight_start hrun

/-- An address is asked for and sent, its name is cached, and it is asked for again. -/
def sampleLookups : List ResolverAction :=
  [.call "1.1.1.1", .lookUp, .mark, .send, .receive, .resolve "one.one.one.one", .tick 1000,
    .call "1.1.1.1", .lookUp]

theorem sampleLookups_isSome : (run DnsResolver.step (start true 0) sampleLookups).isSome := by
  decide

/-- `in_flight_once` for an address whose name is cached. -/
theorem in_flight_once_sample :
    InFlight ((run DnsResolver.step (start true 0) sampleLookups).get sampleLookups_isSome) :=
  in_flight_once (Option.some_get sampleLookups_isSome).symm

/-- When both threads are at rest, nothing is left pending. -/
theorem pending_eq_empty (h : InFlight s) (hworker : s.worker = .waiting) (hqueue : s.queue = [])
    (hcollector : s.collector = .idle) : s.pending = ∅ := by
  ext address
  simp [h.pending, inFlight, hworker, hqueue, hcollector, WorkerPhase.holds, LookupPhase.holds]

end inFlight

/-! ## What the cache answers -/

end DnsResolver

/-- The last resolution of an address, and when it was; the events are listed from the latest on. -/
def lastResolved (address : String) : List NameEvent → Option (String × ℕ)
  | [] => none
  | .resolved other hostname time :: earlier =>
      if other = address then some (hostname, time) else lastResolved address earlier
  | .lookedUp _ _ _ :: earlier => lastResolved address earlier

/-- What the last resolution said, if it is less than ten minutes old. -/
def currentName (now : ℕ) (address : String) (log : List NameEvent) : Option String :=
  ((lastResolved address log).filter fun last => now < last.2 + nameLifetime).map Prod.fst

namespace DnsResolver

/-- The time of the call that goes on, or else the time. -/
def horizon (s : DnsResolver) : ℕ :=
  match s.collector with
  | .called _ now => now
  | _ => s.clock

/-- The cache has the last resolution of every address, but for some that have expired; and what it
answered before was right. -/
structure Latest (s : DnsResolver) : Prop where
  horizon_le : s.horizon ≤ s.clock
  known : ∀ address entry, s.cache.lookup address = some entry → ∃ time,
    lastResolved address s.log = some (entry.hostname, time) ∧
      entry.expiresAt = time + nameLifetime
  dropped : ∀ address hostname time, lastResolved address s.log = some (hostname, time) →
    s.cache.lookup address = none → time + nameLifetime ≤ s.horizon
  answers : ∀ later address now hostname earlier,
    s.log = later ++ .lookedUp address now hostname :: earlier →
      hostname = currentName now address earlier

section latest

variable {s t : DnsResolver} {a : ResolverAction} {as : List ResolverAction} {connected : Bool}
  {clock now : ℕ} {address : String}

/-- The cache says what the last resolution said. -/
theorem Latest.cachedName_eq (h : Latest s) (hnow : s.horizon ≤ now) :
    cachedName now s.cache address = currentName now address s.log := by
  unfold cachedName currentName
  cases hlookup : s.cache.lookup address with
  | some entry =>
      obtain ⟨time, hlast, hexpires⟩ := h.known address entry hlookup
      rw [hlast, Option.filter_some, Option.filter_some, hexpires]
      split_ifs <;> rfl
  | none =>
      cases hlast : lastResolved address s.log with
      | none => rfl
      | some last =>
          obtain ⟨hostname, time⟩ := last
          have hold := h.dropped address hostname time hlast hlookup
          rw [Option.filter_some, if_neg (by simpa using hold.trans hnow)]
          rfl

theorem lookup_evict (cache : Table String DnsCacheEntry) :
    (evict now cache).lookup address = cache.lookup address ∨
      (evict now cache).lookup address = none ∧
        ∃ entry, cache.lookup address = some entry ∧ entry.expiresAt ≤ now := by
  unfold evict
  split_ifs
  · rw [Table.lookup_retain]
    cases hlookup : cache.lookup address with
    | none => exact .inl rfl
    | some entry =>
        rw [Option.filter_some]
        split_ifs with hfresh
        · exact .inl rfl
        · exact .inr ⟨rfl, entry, rfl, by simpa using hfresh⟩
  · exact .inl rfl

/-- What is dropped would not have been answered. -/
theorem cachedName_evict (cache : Table String DnsCacheEntry) :
    cachedName now (evict now cache) address = cachedName now cache address := by
  unfold cachedName
  obtain hsame | ⟨hnone, entry, hlookup, hold⟩ := @lookup_evict now address cache
  · rw [hsame]
  · rw [hnone, hlookup, Option.filter_some, if_neg (by simpa using hold)]
    rfl

/-- A step that leaves the cache and its events. -/
theorem Latest.congr (h : Latest s) (hcache : t.cache = s.cache) (hlog : t.log = s.log)
    (hle : t.horizon ≤ t.clock) (hmono : s.horizon ≤ t.horizon) : Latest t where
  horizon_le := hle
  known := by
    rw [hcache, hlog]
    exact h.known
  dropped := by
    rw [hcache, hlog]
    intro address hostname time hlast hnone
    exact (h.dropped address hostname time hlast hnone).trans hmono
  answers := by
    rw [hlog]
    exact h.answers

theorem Latest.step (h : Latest s) (hstep : s.step a = some t) : Latest t := by
  obtain ⟨cache, pending, queue, connected, worker, collector, clock, sent, settled, log⟩ := s
  cases a with
  | tick elapsed =>
      obtain rfl := Option.some.inj hstep
      have hle := h.horizon_le
      refine h.congr rfl rfl ?_ ?_
      all_goals
        cases collector <;> simp_all [horizon]
        try omega
  | call address =>
      cases collector with
      | idle =>
          simp only [DnsResolver.step] at hstep
          split at hstep
          all_goals
            obtain rfl := Option.some.inj hstep
            exact h.congr rfl rfl le_rfl le_rfl
      | _ => cases hstep
  | lookUp =>
      cases collector with
      | called address now =>
          obtain rfl := Option.some.inj hstep
          have hnow : now ≤ clock := h.horizon_le
          have hhorizon : ∀ found : Option String,
              horizon ⟨evict now cache, pending, queue, connected, worker,
                if found.isSome then .idle else .missed address, clock, sent, settled,
                .lookedUp address now found :: log⟩ = clock := by
            intro found
            unfold horizon
            cases found <;> rfl
          refine ⟨(hhorizon _).le, fun other entry hlookup => ?_, fun other hostname time hlast hnone => ?_,
            fun later other time hostname earlier hlog => ?_⟩
          · obtain hsame | ⟨hnone, -⟩ := @lookup_evict now other cache
            · exact h.known other entry (hsame ▸ hlookup)
            · rw [hnone] at hlookup
              cases hlookup
          · refine le_trans ?_ (hnow.trans (hhorizon _).ge)
            obtain hsame | ⟨-, entry, hentry, hold⟩ := @lookup_evict now other cache
            · exact h.dropped other hostname time hlast (hsame ▸ hnone)
            · obtain ⟨at', hat, hexpires⟩ := h.known other entry hentry
              obtain ⟨rfl, rfl⟩ := Prod.mk.inj (Option.some.inj (hlast.symm.trans hat))
              exact hexpires ▸ hold
          · cases later with
            | nil =>
                obtain ⟨hevent, rfl⟩ := List.cons.inj hlog
                obtain ⟨rfl, rfl, rfl⟩ := NameEvent.lookedUp.inj hevent
                rw [cachedName_evict]
                exact h.cachedName_eq le_rfl
            | cons event later =>
                exact h.answers later other time hostname earlier (List.cons.inj hlog).2
      | _ => cases hstep
  | mark =>
      cases collector with
      | missed address =>
          simp only [DnsResolver.step] at hstep
          split_ifs at hstep
          all_goals
            obtain rfl := Option.some.inj hstep
            exact h.congr rfl rfl le_rfl le_rfl
      | _ => cases hstep
  | send =>
      cases collector with
      | marked address =>
          simp only [DnsResolver.step] at hstep
          split_ifs at hstep
          all_goals
            obtain rfl := Option.some.inj hstep
            exact h.congr rfl rfl le_rfl le_rfl
      | _ => cases hstep
  | forget =>
      cases collector with
      | refused address =>
          obtain rfl := Option.some.inj hstep
          exact h.congr rfl rfl le_rfl le_rfl
      | _ => cases hstep
  | receive =>
      simp only [DnsResolver.step] at hstep
      split at hstep
      · obtain rfl := Option.some.inj hstep
        exact h.congr rfl rfl h.horizon_le le_rfl
      · cases hstep
  | resolve hostname =>
      cases worker with
      | resolving address =>
          obtain rfl := Option.some.inj hstep
          refine ⟨h.horizon_le, fun other entry hlookup => ?_, fun other name time hlast hnone => ?_,
            fun later other time name earlier hlog => ?_⟩
          · obtain ⟨rfl, rfl⟩ | ⟨hne, hlookup⟩ := Table.lookup_insert_eq_some_iff.mp hlookup
            · exact ⟨clock, if_pos rfl, rfl⟩
            · obtain ⟨time, hlast, hexpires⟩ := h.known other entry hlookup
              exact ⟨time, (if_neg (Ne.symm hne)).trans hlast, hexpires⟩
          · by_cases hsame : address = other
            · subst hsame
              rw [AList.lookup_insert] at hnone
              cases hnone
            · rw [AList.lookup_insert_ne (Ne.symm hsame)] at hnone
              exact h.dropped other name time ((if_neg hsame).symm.trans hlast) hnone
          · cases later with
            | nil => cases (List.cons.inj hlog).1
            | cons event later =>
                exact h.answers later other time name earlier (List.cons.inj hlog).2
      | _ => cases hstep
  | settle =>
      cases worker with
      | cached address =>
          obtain rfl := Option.some.inj hstep
          exact h.congr rfl rfl h.horizon_le le_rfl
      | _ => cases hstep

theorem latest_start : Latest (start connected clock) :=
  ⟨le_rfl, by simp [start], by simp [start, lastResolved], by simp [start]⟩

/-- **The cache answers what the last resolution said**, for ten minutes, and nothing else. -/
theorem lookUp_latest {later earlier : List NameEvent} {hostname : Option String}
    (hrun : run DnsResolver.step (start connected clock) as = some s)
    (hlog : s.log = later ++ .lookedUp address now hostname :: earlier) :
    hostname = currentName now address earlier :=
  (run_invariant (fun _ _ _ h hstep => Latest.step h hstep) latest_start hrun).answers _ _ _ _ _ hlog

/-- `lookUp_latest` for a name that was cached a moment ago. -/
theorem lookUp_latest_sample :
    some "one.one.one.one" = currentName 1000 "1.1.1.1"
      [.resolved "1.1.1.1" "one.one.one.one" 0, .lookedUp "1.1.1.1" 0 none] :=
  @lookUp_latest _ sampleLookups true 0 1000 "1.1.1.1" [] _ _
    (Option.some_get sampleLookups_isSome).symm (by decide)

end latest

end DnsResolver

end OpenGuard.Windows
