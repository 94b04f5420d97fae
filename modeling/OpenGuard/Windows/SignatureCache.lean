import Mathlib.Data.List.Induction
import OpenGuard.Domain.Models
import OpenGuard.Lib.BudgetedCache

/-!
# The signatures of running programs

To verify the signature of a program takes long, so a snapshot verifies at most eight, and a cache
keeps what they said for the identity of the file. A cache of more than 8,192 signatures is dropped.

* `signaturePass`: what a snapshot does to the cache, and what it says of each process.
* `signatures_verified`: over any snapshots, what is said of a process was verified for its file, or
  is `unknown`; no snapshot verifies more than eight.
* `signatures_complete`: while the same programs run, not more than the cache holds, every eight of
  them take one snapshot, and then all are known.
-/

namespace OpenGuard.Windows

open OpenGuard.Lib OpenGuard.Domain

/-! ## The cache -/

/-- A process in a snapshot: its path, the identity of the file there, and what a verification of it
would say.
Source: `windows/lib.rs`, `WindowsCollector::processes` -/
structure RunningProgram where
  path : String
  identity : String
  verified : SignatureStatus

/-- The cache and the verifications of a snapshot so far, and what it says of the processes.
Source: `windows/lib.rs`, `WindowsCollector::processes` -/
structure SignaturePass where
  fill : Fill String SignatureStatus
  said : List SignatureStatus

/-- Source: `windows/lib.rs`, `WindowsCollector::processes` -/
def checksPerSnapshot : ℕ := 8

/-- Source: `windows/lib.rs`, `WindowsCollector::processes` -/
def maximumSignatures : ℕ := 8192

/-- One process.
Source: `windows/lib.rs`, `WindowsCollector::processes` -/
def sign (s : SignaturePass) (program : RunningProgram) : SignaturePass :=
  if program.path = "" then { s with said := s.said ++ [.unknown] }
  else
    let fill := s.fill.look checksPerSnapshot program.identity program.verified
    { fill, said := s.said ++ [(fill.cache.lookup program.identity).getD .unknown] }

/-- A snapshot: the cache that it leaves, and what it says of the processes.
Source: `windows/lib.rs`, `WindowsCollector::processes` -/
def signaturePass (cache : Table String SignatureStatus) (programs : List RunningProgram) :
    Table String SignatureStatus × List SignatureStatus :=
  let s := programs.foldl sign ⟨⟨cache, 0⟩, []⟩
  (if maximumSignatures < s.fill.cache.size then ∅ else s.fill.cache, s.said)

/-- The cache after some snapshots.
Source: `windows/lib.rs`, `WindowsCollector::processes` -/
def cacheFrom (cache : Table String SignatureStatus) (snapshots : List (List RunningProgram)) :
    Table String SignatureStatus :=
  snapshots.foldl (fun cache programs => (signaturePass cache programs).1) cache

/-- The verifications of a snapshot.
Source: `windows/lib.rs`, `WindowsCollector::processes` -/
def verifications (cache : Table String SignatureStatus) (programs : List RunningProgram) : ℕ :=
  (programs.foldl sign ⟨⟨cache, 0⟩, []⟩).fill.used

/-! ## What a snapshot says -/

/-- The processes with a path, and what the verification of each would say. -/
def signable (programs : List RunningProgram) : List (String × SignatureStatus) :=
  (programs.filter (·.path ≠ "")).map fun program => (program.identity, program.verified)

/-- The files that run. -/
def filesOf (programs : List RunningProgram) : List String := (signable programs).map Prod.fst

variable {cache : Table String SignatureStatus} {programs : List RunningProgram}
  {snapshots : List (List RunningProgram)} {s : SignaturePass}

/-- What is said of a process is in the cache. -/
def SaidFrom (cache : Table String SignatureStatus) (program : RunningProgram)
    (status : SignatureStatus) : Prop :=
  status = .unknown ∨ cache.lookup program.identity = some status

/-- A verification of a program with the same file said so. -/
def VerifiedBy (programs : List RunningProgram) (program : RunningProgram)
    (status : SignatureStatus) : Prop :=
  ∃ earlier ∈ programs,
    earlier.path ≠ "" ∧ earlier.identity = program.identity ∧ earlier.verified = status

theorem mem_signable {file : String} {status : SignatureStatus} :
    (file, status) ∈ signable programs ↔
      ∃ program ∈ programs,
        program.path ≠ "" ∧ program.identity = file ∧ program.verified = status := by
  simp [signable, and_assoc]

theorem foldl_sign_fill :
    (programs.foldl sign s).fill = s.fill.pass checksPerSnapshot (signable programs) := by
  induction programs generalizing s with
  | nil => rfl
  | cons program programs ih =>
      rw [List.foldl_cons, ih]
      by_cases hpath : program.path = ""
      · simp [signable, sign, hpath]
      · simp [signable, sign, hpath, Fill.pass]

theorem foldl_sign_kept {key : String} {status : SignatureStatus}
    (h : s.fill.cache.lookup key = some status) :
    (programs.foldl sign s).fill.cache.lookup key = some status := by
  rw [foldl_sign_fill]
  exact (Fill.filled_pass fun entry hentry => List.mem_map_of_mem hentry).kept key status h

/-- Each process is said what the cache has in the end, or `unknown`. -/
theorem foldl_sign_said : ∃ said, (programs.foldl sign s).said = s.said ++ said ∧
    List.Forall₂ (SaidFrom (programs.foldl sign s).fill.cache) programs said := by
  induction programs generalizing s with
  | nil => exact ⟨[], by simp, .nil⟩
  | cons program programs ih =>
      obtain ⟨said, hsaid, hforall⟩ := @ih (sign s program)
      rw [List.foldl_cons, hsaid]
      by_cases hpath : program.path = ""
      · exact ⟨.unknown :: said, by simp [sign, hpath], .cons (.inl rfl) hforall⟩
      · refine ⟨((sign s program).fill.cache.lookup program.identity).getD .unknown :: said,
          by simp [sign, hpath], .cons ?_ hforall⟩
        cases hlookup : (sign s program).fill.cache.lookup program.identity with
        | none => exact .inl rfl
        | some status => exact .inr (foldl_sign_kept hlookup)

theorem lookup_signaturePass {key : String} {status : SignatureStatus}
    (h : (signaturePass cache programs).1.lookup key = some status) :
    cache.lookup key = some status ∨ (key, status) ∈ signable programs := by
  unfold signaturePass at h
  dsimp only at h
  split_ifs at h
  · cases h
  · rw [foldl_sign_fill] at h
    exact Fill.of_lookup_pass h

/-- Only what was verified is cached, in any run. -/
theorem lookup_cacheFrom {key : String} {status : SignatureStatus}
    (h : (cacheFrom ∅ snapshots).lookup key = some status) :
    (key, status) ∈ signable snapshots.flatten := by
  induction snapshots using List.reverseRecOn with
  | nil => cases h
  | append_singleton snapshots programs ih =>
      have hsignable : signable (snapshots ++ [programs]).flatten =
          signable snapshots.flatten ++ signable programs := by
        simp [signable]
      rw [cacheFrom, List.foldl_append] at h
      rw [hsignable, List.mem_append]
      exact (lookup_signaturePass h).imp_left ih

/-- **What is said was verified.** After any snapshots, what the next one says of a process is
`unknown`, or a verification of a program with the same file, now or earlier, said so; it says the
same of two processes with the same file, unless it is `unknown`; and it verifies at most eight. -/
theorem signatures_verified (snapshots : List (List RunningProgram))
    (programs : List RunningProgram) :
    let said := (signaturePass (cacheFrom ∅ snapshots) programs).2
    List.Forall₂ (fun program status =>
      status = .unknown ∨ VerifiedBy (snapshots.flatten ++ programs) program status) programs said ∧
      (∃ known : String → SignatureStatus, List.Forall₂ (fun program status =>
        status = .unknown ∨ status = known program.identity) programs said) ∧
      verifications (cacheFrom ∅ snapshots) programs ≤ checksPerSnapshot := by
  dsimp only
  obtain ⟨said, hsaid, hforall⟩ := @foldl_sign_said programs ⟨⟨cacheFrom ∅ snapshots, 0⟩, []⟩
  rw [List.nil_append] at hsaid
  rw [foldl_sign_fill] at hforall
  have hpass : (signaturePass (cacheFrom ∅ snapshots) programs).2 = said := hsaid
  rw [hpass]
  refine ⟨?_, ?_, ?_⟩
  · refine hforall.imp fun program status hstatus => hstatus.imp_right fun hlookup => ?_
    have hmem : (program.identity, status) ∈ signable (snapshots.flatten ++ programs) := by
      rw [signable, List.filter_append, List.map_append]
      exact List.mem_append.mpr ((Fill.of_lookup_pass hlookup).imp_left lookup_cacheFrom)
    exact mem_signable.mp hmem
  · refine ⟨fun file => (((⟨cacheFrom ∅ snapshots, 0⟩ : Fill String SignatureStatus).pass
      checksPerSnapshot (signable programs)).cache.lookup file).getD .unknown, ?_⟩
    refine hforall.imp fun program status hstatus => hstatus.imp_right fun hlookup => ?_
    dsimp only at hlookup ⊢
    rw [hlookup, Option.getD_some]
  · rw [verifications, foldl_sign_fill]
    exact (Fill.filled_pass fun entry hentry => List.mem_map_of_mem hentry).within (Nat.zero_le _)

/-! ## While the same programs run -/

/-- A snapshot of some programs, when the cache has room for all of them. -/
theorem signaturePass_room {files : List String}
    (hfiles : ∀ file, file ∈ filesOf programs ↔ file ∈ files)
    (hroom : cache.size + (Fill.missing files cache).card ≤ maximumSignatures) :
    let next := (signaturePass cache programs).1
    (Fill.missing files next).card = (Fill.missing files cache).card - checksPerSnapshot ∧
      next.size + (Fill.missing files next).card = cache.size + (Fill.missing files cache).card := by
  have hfilled : Fill.Filled checksPerSnapshot files (filesOf programs) ⟨cache, 0⟩
      (Fill.pass checksPerSnapshot (signable programs) ⟨cache, 0⟩) :=
    Fill.filled_pass fun entry hentry => (hfiles entry.1).mp (List.mem_map_of_mem hentry)
  have hcard : (Fill.missing files
      (Fill.pass checksPerSnapshot (signable programs) ⟨cache, 0⟩).cache).card =
        (Fill.missing files cache).card - checksPerSnapshot :=
    Fill.card_missing_pass hfiles cache
  have hpaid := hfilled.paid
  have hsize := hfilled.size
  -- nothing more than what is missing is added, so that the cache is not dropped
  have hnext : (signaturePass cache programs).1 =
      (Fill.pass checksPerSnapshot (signable programs) ⟨cache, 0⟩).cache := by
    unfold signaturePass
    dsimp only
    rw [foldl_sign_fill, if_neg]
    dsimp only at hpaid hsize ⊢
    omega
  rw [hnext]
  refine ⟨hcard, ?_⟩
  dsimp only at hpaid hsize ⊢
  omega

/-- **Every signature is known in the end.** While the same programs run, and the cache has room for
them, each snapshot verifies eight that were missing, or all there are; so that after `n` snapshots of
at most `8 * n` missing ones, all are known. -/
theorem signatures_complete {files : List String}
    (hfiles : ∀ programs ∈ snapshots, ∀ file, file ∈ filesOf programs ↔ file ∈ files)
    (hroom : cache.size + (Fill.missing files cache).card ≤ maximumSignatures) :
    (Fill.missing files (cacheFrom cache snapshots)).card =
        (Fill.missing files cache).card - checksPerSnapshot * snapshots.length ∧
      ((Fill.missing files cache).card ≤ checksPerSnapshot * snapshots.length →
        ∀ file ∈ files, file ∈ cacheFrom cache snapshots) := by
  have hcard : (Fill.missing files (cacheFrom cache snapshots)).card =
      (Fill.missing files cache).card - checksPerSnapshot * snapshots.length := by
    induction snapshots generalizing cache with
    | nil => simp [cacheFrom]
    | cons programs snapshots ih =>
        obtain ⟨hfirst, hrest⟩ := List.forall_mem_cons.mp hfiles
        obtain ⟨hnext, hsize⟩ := signaturePass_room hfirst hroom
        have hlater := ih hrest (hsize.trans_le hroom)
        rw [cacheFrom, List.foldl_cons, ← cacheFrom, hlater, hnext, List.length_cons, Nat.mul_succ]
        omega
  refine ⟨hcard, fun henough file hfile => ?_⟩
  have hnone : Fill.missing files (cacheFrom cache snapshots) = ∅ := by
    rw [← Finset.card_eq_zero, hcard]
    omega
  by_contra hnot
  exact Finset.notMem_empty file (hnone ▸ Fill.mem_missing.mpr ⟨hfile, hnot⟩)

/-- Ten programs. -/
def tenPrograms : List RunningProgram :=
  (List.range 10).map fun n => ⟨"C:\\Tools\\" ++ toString n, toString n, .trusted⟩

/-- `signatures_complete` for two snapshots of ten programs, and the last of them. -/
theorem signatures_complete_ten : "9" ∈ cacheFrom ∅ [tenPrograms, tenPrograms] :=
  (@signatures_complete ∅ [tenPrograms, tenPrograms] (filesOf tenPrograms)
    (by simp) (by decide)).2 (by decide) "9" (by decide)

end OpenGuard.Windows
