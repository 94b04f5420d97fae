import OpenGuard.Domain.Models
import OpenGuard.Storage.Executables
import Mathlib.Data.Finset.Insert

/-!
# The executable baseline

Which executables of a snapshot are new: for the protection loop, those it has not met since it
started (`markFirstObservations`); for an owner's snapshot, those outside the owner's persistent
baseline (`applyExecutableBaseline`).

Both only set the `isNew` flag of the processes (`forgetNew_markFirstObservations` and
`forgetNew_applyExecutableBaseline`), so two snapshots of the same machine that carry the same
flags have the same processes (`eq_of_forgetNew_eq`).
-/

namespace OpenGuard.Service

open OpenGuard.Lib OpenGuard.Domain OpenGuard.Storage

/-- What the clocks show during a call: the monotonic clock in nanoseconds, and the time of day
in seconds. -/
structure Clock where
  instant : ℕ
  unixSeconds : ℕ
  deriving DecidableEq, Inhabited

/-- Source: `main.rs`, `unix_timestamp` -/
def Clock.unixTimestamp (now : Clock) : String := "unix:" ++ toString now.unixSeconds

/-! ## The protection loop's marking -/

/-- What the protection loop remembers of the snapshots it took. -/
structure ObservationState where
  knownIdentities : Finset String
  baselined : Bool
  deriving DecidableEq

/-- A loop that has taken no snapshot yet. -/
def ObservationState.initial : ObservationState := ⟨∅, false⟩

/-- The loop over the processes that inserts each identity into the known ones.
Source: `main.rs`, `run_protection_loop` -/
def markFirstObservations (baselined : Bool) :
    Finset String → List ProcessRecord → List ProcessRecord × Finset String
  | known, [] => ([], known)
  | known, process :: rest =>
      if process.identity = "" then
        let (marked, known) := markFirstObservations baselined known rest
        (process :: marked, known)
      else
        let firstObservation := decide (process.identity ∉ known)
        let (marked, known) :=
          markFirstObservations baselined (insert process.identity known) rest
        ({ process with isNew := baselined && firstObservation } :: marked, known)

/-! ## The persistent baseline -/

/-- Source: `main.rs`, `ExecutableBaseline` -/
structure ExecutableBaseline where
  identities : Finset String
  lastPersisted : ℕ
  deriving DecidableEq

/-- The database tables and the cached baselines that `apply_executable_baseline` works on. -/
structure BaselineState where
  metadata : Metadata
  seenExecutables : SeenExecutables
  executableBaselines : Table String ExecutableBaseline

/-- How the environment lets the database calls of `apply_executable_baseline` fail. -/
structure BaselineFaults where
  getMetadata : Fault
  knownIdentities : Fault
  recordExecutables : Fault
  setMetadata : Fault
  deriving DecidableEq, Inhabited

/-- Five minutes, in nanoseconds. -/
def persistInterval : ℕ := 5 * 60 * 1000000000

/-- The text `Display` gives a signature status.
Source: `models.rs`, `SignatureStatus` -/
def signatureText : SignatureStatus → String
  | .trusted => "trusted"
  | .untrusted => "untrusted"
  | .unknown => "unknown"
  | .notApplicable => "not_applicable"

/-- The observation of one process. -/
def observation (now : Clock) (process : ProcessRecord) : SeenExecutable where
  identity := process.identity
  path := process.path
  name := process.name
  signature := signatureText process.signature
  riskScore := process.risk.score
  observedAt := now.unixTimestamp

/-- The loop over the processes when the baseline is cached: marks the processes whose identity
it inserts, and collects the observations to persist.
Source: `main.rs`, `ServiceState::apply_executable_baseline` -/
def markAgainstCache (now : Clock) (persistAll : Bool) :
    Finset String → List ProcessRecord → List ProcessRecord × Finset String × List SeenExecutable
  | identities, [] => ([], identities, [])
  | identities, process :: rest =>
      let isNew := process.identity != "" && decide (process.identity ∉ identities)
      let identities :=
        if process.identity = "" then identities else insert process.identity identities
      let process := { process with isNew := isNew }
      let (marked, identities, changed) := markAgainstCache now persistAll identities rest
      (process :: marked, identities,
        if isNew || persistAll then observation now process :: changed else changed)

/-- The new state and snapshot, and what the function returns: whether the baseline was
initialized by this call. An early return keeps what was already changed.
Source: `main.rs`, `ServiceState::apply_executable_baseline` -/
def applyExecutableBaseline (faults : BaselineFaults) (now : Clock) (ownerSid : String)
    (state : BaselineState) (snapshot : SystemSnapshot) :
    BaselineState × SystemSnapshot × Except StorageError Bool :=
  match state.executableBaselines.lookup ownerSid with
  | some baseline =>
      let persistAll := decide (persistInterval ≤ now.instant - baseline.lastPersisted)
      let (marked, identities, changed) :=
        markAgainstCache now persistAll baseline.identities snapshot.processes
      let snapshot := { snapshot with processes := marked }
      let keep (lastPersisted : ℕ) :=
        state.executableBaselines.insert ownerSid ⟨identities, lastPersisted⟩
      if changed = [] then
        ({ state with executableBaselines := keep baseline.lastPersisted }, snapshot, .ok false)
      else
        match recordExecutables faults.recordExecutables ownerSid changed
            state.seenExecutables with
        | (.error error, _) =>
            ({ state with executableBaselines := keep baseline.lastPersisted }, snapshot,
              .error error)
        | (.ok (), rows) =>
            ({ state with seenExecutables := rows, executableBaselines := keep now.instant },
              snapshot, .ok false)
  | none =>
      let baselineKey := "baseline_initialized:" ++ ownerSid
      match getMetadata faults.getMetadata baselineKey state.metadata with
      | .error error => (state, snapshot, .error error)
      | .ok value =>
          let initialized := value == some "1"
          match knownExecutableIdentities faults.knownIdentities ownerSid
              (snapshot.processes.map (·.identity)) state.seenExecutables with
          | .error error => (state, snapshot, .error error)
          | .ok known =>
              let marked := snapshot.processes.map fun process =>
                { process with
                  isNew := initialized && process.identity != ""
                    && !known.contains process.identity }
              let snapshot := { snapshot with processes := marked }
              let observations :=
                (marked.filter fun process => process.identity != "").map (observation now)
              match recordExecutables faults.recordExecutables ownerSid observations
                  state.seenExecutables with
              | (.error error, _) => (state, snapshot, .error error)
              | (.ok (), rows) =>
                  let state := { state with seenExecutables := rows }
                  match (if initialized then (.ok (), state.metadata)
                    else setMetadata faults.setMetadata baselineKey "1" state.metadata) with
                  | (.error error, _) => (state, snapshot, .error error)
                  | (.ok (), metadata) =>
                      let identities := (observations.map (·.identity)).toFinset
                      ({ state with
                          metadata := metadata
                          executableBaselines :=
                            state.executableBaselines.insert ownerSid
                              ⟨identities, now.instant⟩ },
                        snapshot, .ok !initialized)

/-! ## Only the flags change -/

/-- The process without its flag. -/
def forgetNew (process : ProcessRecord) : ProcessRecord := { process with isNew := false }

/-- A process is known from its flag and the rest of it. -/
theorem eq_of_forgetNew_eq {l m : List ProcessRecord} (h : l.map forgetNew = m.map forgetNew)
    (hflags : l.map (·.isNew) = m.map (·.isNew)) : l = m := by
  induction l generalizing m with
  | nil => exact (List.map_eq_nil_iff.mp h.symm).symm
  | cons p l ih =>
      cases m with
      | nil => simp at h
      | cons q m =>
          simp only [List.map_cons, List.cons.injEq] at h hflags
          obtain ⟨hpq, hrest⟩ := h
          have heq : p = q := by
            cases p
            cases q
            simp only [forgetNew, ProcessRecord.mk.injEq] at hpq hflags ⊢
            exact ⟨hpq.1, hpq.2.1, hpq.2.2.1, hpq.2.2.2.1, hpq.2.2.2.2.1, hpq.2.2.2.2.2.1,
              hflags.1, hpq.2.2.2.2.2.2.2⟩
          rw [heq, ih hrest hflags.2]

theorem forgetNew_markFirstObservations (baselined : Bool) (known : Finset String)
    (processes : List ProcessRecord) :
    (markFirstObservations baselined known processes).1.map forgetNew =
      processes.map forgetNew := by
  induction processes generalizing known with
  | nil => rfl
  | cons process rest ih =>
      unfold markFirstObservations
      split_ifs with hempty
      · simp [ih]
      · simp [ih, forgetNew]

theorem forgetNew_markAgainstCache (now : Clock) (persistAll : Bool) (identities : Finset String)
    (processes : List ProcessRecord) :
    (markAgainstCache now persistAll identities processes).1.map forgetNew =
      processes.map forgetNew := by
  induction processes generalizing identities with
  | nil => rfl
  | cons process rest ih =>
      unfold markAgainstCache
      simp [ih, forgetNew]

section baseline

variable (faults : BaselineFaults) (now : Clock) (ownerSid : String) (state : BaselineState)
  (snapshot : SystemSnapshot)

/-- Whatever fails, the processes only get another flag, and the rest of the snapshot stays. -/
theorem forgetNew_applyExecutableBaseline :
    let result := (applyExecutableBaseline faults now ownerSid state snapshot).2.1
    result.processes.map forgetNew = snapshot.processes.map forgetNew ∧
      result.endpoints = snapshot.endpoints ∧ result.coverage = snapshot.coverage := by
  unfold applyExecutableBaseline
  cases state.executableBaselines.lookup ownerSid with
  | some baseline =>
      dsimp only
      have h := forgetNew_markAgainstCache now
        (decide (persistInterval ≤ now.instant - baseline.lastPersisted)) baseline.identities
        snapshot.processes
      split_ifs
      · exact ⟨h, rfl, rfl⟩
      · split <;> exact ⟨h, rfl, rfl⟩
  | none =>
      have h (initialized : Bool) (known : List String) :
          (snapshot.processes.map fun process =>
            { process with
              isNew := initialized && process.identity != ""
                && !known.contains process.identity }).map forgetNew =
            snapshot.processes.map forgetNew := by
        rw [List.map_map]
        rfl
      dsimp only
      split
      · exact ⟨rfl, rfl, rfl⟩
      · split
        · exact ⟨rfl, rfl, rfl⟩
        · split
          · exact ⟨h _ _, rfl, rfl⟩
          · split <;> exact ⟨h _ _, rfl, rfl⟩

end baseline

end OpenGuard.Service
