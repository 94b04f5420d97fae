import OpenGuard.Detection.FileScan

/-!
# Reading a file

A file is read piece by piece, up to its end, and every piece is handed to the digest. The size
that is reported was asked for before the first piece was read.

* `Hasher`: a digest that takes its input in pieces; `Hasher.readHashAndContent`: the loop with it.
* `readHashAndContent_of_chunks`: **how the reads cut the content makes no difference.**
* `hardLimit_iff`: **the limit on the size is kept exactly when the reads give what the size
  promised**, or stop in time.
-/

namespace OpenGuard.Detection

open OpenGuard.Lib OpenGuard.Domain

/-! ## A digest that is fed in pieces -/

/-- Source: `scan.rs`, `BUFFER_SIZE` -/
def bufferSize : ℕ := 1024 * 1024

/-- A digest: `new`, `update` and `finalize`, in hexadecimal. An update with two pieces, one after
the other, is an update with both. -/
structure Hasher (σ : Type*) where
  new : σ
  update : σ → List UInt8 → σ
  finalize : σ → String
  update_nil : ∀ state, update state [] = state
  update_append : ∀ state xs ys, update state (xs ++ ys) = update (update state xs) ys

namespace Hasher

variable {σ : Type*} (hasher : Hasher σ)

/-- The digest of bytes that are at hand. -/
def digest (bytes : List UInt8) : String := hasher.finalize (hasher.update hasher.new bytes)

/-- The loop that reads: each piece updates the digest and, up to the limit, the content.
Source: `scan.rs`, `read_hash_and_content` -/
def readLoop : List ReadTurn → σ → List UInt8 → Except ScanError (σ × List UInt8)
  | [], state, content => .ok (state, content)
  | turn :: turns, state, content =>
      if turn.cancelled then .error .cancelled
      else
        match turn.read with
        | .error error => .error (.io error)
        | .ok [] => .ok (state, content)
        | .ok bytes =>
            readLoop turns (hasher.update state bytes)
              (content ++ bytes.take (contentInspectionBytes - content.length))

/-- Source: `scan.rs`, `read_hash_and_content` -/
def readHashAndContent (maximumBytes : ℕ) (reads : FileReads) :
    Except ScanError (HashOutcome × List UInt8) :=
  match reads.opened with
  | .error error => .error (.io error)
  | .ok sizeBytes =>
      if maximumBytes < sizeBytes.toNat then .error (.tooLarge maximumBytes)
      else
        (hasher.readLoop reads.turns hasher.new []).map fun (state, content) =>
          (⟨hasher.finalize state, sizeBytes⟩, content)

/-- The loop with the digest does what the loop that keeps the bytes does. -/
theorem readLoop_eq (turns : List ReadTurn) (hashed content : List UInt8) :
    hasher.readLoop turns (hasher.update hasher.new hashed) content =
      (readTurns turns hashed content).map fun (hashed, content) =>
        (hasher.update hasher.new hashed, content) := by
  induction turns generalizing hashed content with
  | nil => rfl
  | cons turn turns ih =>
      rw [readLoop, readTurns]
      split_ifs
      · rfl
      · match turn.read with
        | .error error => rfl
        | .ok [] => rfl
        | .ok (byte :: bytes) =>
            simp only [← hasher.update_append]
            exact ih _ _

end Hasher

/-- The engine whose digest is that of a hasher. -/
def Engine.withHasher {σ : Type*} (engine : Engine) (hasher : Hasher σ) : Engine :=
  { engine with sha256 := hasher.digest }

/-- **Hashing while reading** gives the digest of all that was read. -/
theorem Hasher.readHashAndContent_eq {σ : Type*} (hasher : Hasher σ) (engine : Engine)
    (maximumBytes : ℕ) (reads : FileReads) :
    hasher.readHashAndContent maximumBytes reads =
      Detection.readHashAndContent (engine.withHasher hasher) maximumBytes reads := by
  unfold Hasher.readHashAndContent Detection.readHashAndContent
  have hloop := hasher.readLoop_eq reads.turns [] []
  rw [hasher.update_nil] at hloop
  cases reads.opened with
  | error error => rfl
  | ok sizeBytes =>
      simp only [hloop]
      split_ifs
      · rfl
      · cases readTurns reads.turns [] [] <;> rfl

/-- Source: `scan.rs`, `hash_file` -/
def hashFile (engine : Engine) (maximumBytes : ℕ) (reads : FileReads) :
    Except ScanError HashOutcome := (readHashAndContent engine maximumBytes reads).map Prod.fst

/-! ## What a run of the loop takes -/

/-- The bytes that are read before the loop ends, in whatever way. -/
def takenBytes : List ReadTurn → List UInt8
  | [] => []
  | turn :: turns =>
      if turn.cancelled then []
      else
        match turn.read with
        | .error _ => []
        | .ok [] => []
        | .ok bytes => bytes ++ takenBytes turns

/-- The loop ends at the end of the file: no read fails, and it is not cancelled. -/
def reachesEnd : List ReadTurn → Bool
  | [] => true
  | turn :: turns =>
      !turn.cancelled &&
        match turn.read with
        | .error _ => false
        | .ok [] => true
        | .ok _ => reachesEnd turns

/-- At the end of the file everything that was read is hashed, and as much of it as there is room
for is kept. -/
theorem readTurns_of_reachesEnd {turns : List ReadTurn} (h : reachesEnd turns)
    (hashed content : List UInt8) :
    readTurns turns hashed content =
      .ok (hashed ++ takenBytes turns,
        content ++ (takenBytes turns).take (contentInspectionBytes - content.length)) := by
  induction turns generalizing hashed content with
  | nil => simp [readTurns, takenBytes]
  | cons turn turns ih =>
      simp only [reachesEnd, Bool.and_eq_true, Bool.not_eq_true'] at h
      obtain ⟨hcancelled, hread⟩ := h
      rw [readTurns, takenBytes, hcancelled]
      match hturn : turn.read with
      | .error error => simp [hturn] at hread
      | .ok [] => simp
      | .ok (byte :: bytes) =>
          simp only [hturn] at hread
          simp only [Bool.false_eq_true, if_false]
          have hroom : contentInspectionBytes -
              (content ++ (byte :: bytes).take (contentInspectionBytes - content.length)).length =
              contentInspectionBytes - content.length - (byte :: bytes).length := by
            simp only [List.length_append, List.length_take]
            omega
          rw [ih hread, hroom, List.append_assoc, List.append_assoc, List.take_append]

/-- A loop that does not come to the end of the file fails. -/
theorem readTurns_of_not_reachesEnd {turns : List ReadTurn} (h : ¬reachesEnd turns)
    (hashed content : List UInt8) : ∃ error, readTurns turns hashed content = .error error := by
  induction turns generalizing hashed content with
  | nil => simp [reachesEnd] at h
  | cons turn turns ih =>
      simp only [reachesEnd, Bool.and_eq_true, Bool.not_eq_true', not_and] at h
      rw [readTurns]
      split_ifs with hcancelled
      · exact ⟨_, rfl⟩
      · have hread := h (Bool.eq_false_iff.mpr hcancelled)
        cases hturn : turn.read with
        | error error => exact ⟨_, rfl⟩
        | ok bytes =>
            cases bytes with
            | nil => simp [hturn] at hread
            | cons byte bytes =>
                simp only [hturn] at hread
                exact ih hread _ _

/-! ## How the reads cut the content -/

/-- The turns of a loop that is not cancelled and whose reads do not fail: these pieces, and then
the end of the file. -/
def quietTurns (chunks : List (List UInt8)) : List ReadTurn :=
  chunks.map (⟨false, .ok ·⟩) ++ [⟨false, .ok []⟩]

section chunks

variable {chunks : List (List UInt8)}

/-- What a read can give before the end of the file: some bytes, and no more than the buffer
holds. -/
def Filled (chunk : List UInt8) : Prop := chunk ≠ [] ∧ chunk.length ≤ bufferSize

theorem reachesEnd_quietTurns (h : ∀ chunk ∈ chunks, Filled chunk) :
    reachesEnd (quietTurns chunks) := by
  induction chunks with
  | nil => rfl
  | cons chunk chunks ih =>
      have hrest := ih fun other hother => h other (List.mem_cons_of_mem _ hother)
      match hchunk : chunk with
      | [] => exact absurd rfl (h [] (by simp)).1
      | byte :: bytes => simpa [quietTurns, reachesEnd] using hrest

theorem takenBytes_quietTurns (h : ∀ chunk ∈ chunks, Filled chunk) :
    takenBytes (quietTurns chunks) = chunks.flatten := by
  induction chunks with
  | nil => rfl
  | cons chunk chunks ih =>
      have hrest := ih fun other hother => h other (List.mem_cons_of_mem _ hother)
      match hchunk : chunk with
      | [] => exact absurd rfl (h [] (by simp)).1
      | byte :: bytes =>
          rw [quietTurns] at hrest
          simp [quietTurns, takenBytes, hrest]

theorem readTurns_quietTurns (h : ∀ chunk ∈ chunks, Filled chunk) :
    readTurns (quietTurns chunks) [] [] =
      .ok (chunks.flatten, chunks.flatten.take contentInspectionBytes) := by
  have hturns := readTurns_of_reachesEnd (reachesEnd_quietTurns h) [] []
  rw [takenBytes_quietTurns h] at hturns
  simpa using hturns

/-- **How the reads cut the content makes no difference.** Read in any pieces, it gives the digest
of the whole, and as content its first bytes, up to the limit; so everything that the scan says of
the file is the same for any two ways to cut it. -/
theorem readHashAndContent_of_chunks {σ : Type*} (hasher : Hasher σ) (engine : Engine)
    (scanner : FileScanner) (context : ScanContext) (path : String) (maximumBytes : ℕ)
    (metadata : Except IoError (Bool × UInt64)) (sizeBytes : UInt64) (bytes : List UInt8)
    (chunks : List (List UInt8)) (hbytes : chunks.flatten = bytes)
    (hchunks : ∀ chunk ∈ chunks, Filled chunk) (hsize : sizeBytes.toNat ≤ maximumBytes) :
    hasher.readHashAndContent maximumBytes ⟨metadata, .ok sizeBytes, quietTurns chunks⟩ =
        .ok (⟨hasher.digest bytes, sizeBytes⟩,
          bytes.take (min bytes.length contentInspectionBytes)) ∧
      ∀ others : List (List UInt8), others.flatten = bytes → (∀ chunk ∈ others, Filled chunk) →
        scanFile (engine.withHasher hasher) scanner context path
            ⟨metadata, .ok sizeBytes, quietTurns others⟩ =
          scanFile (engine.withHasher hasher) scanner context path
            ⟨metadata, .ok sizeBytes, quietTurns chunks⟩ := by
  constructor
  · rw [hasher.readHashAndContent_eq engine]
    have htake : bytes.take (min bytes.length contentInspectionBytes) =
        bytes.take contentInspectionBytes := by
      rw [Nat.min_comm, ← List.take_take, List.take_length]
    simp only [readHashAndContent, if_neg hsize.not_gt, readTurns_quietTurns hchunks, hbytes, htake]
    rfl
  · intro others hothers hfilled
    simp only [scanFile, readHashAndContent, readTurns_quietTurns hchunks,
      readTurns_quietTurns hfilled, hothers, hbytes]

/-- A digest that keeps its input, and knows what SHA-256 makes of `abc`. -/
def abcHasher : Hasher (List UInt8) where
  new := []
  update state bytes := state ++ bytes
  finalize bytes :=
    if bytes = [0x61, 0x62, 0x63] then
      "ba7816bf8f01cfea414140de5dae2223b00361a396177a9cb410ff61f20015ad"
    else ""
  update_nil := List.append_nil
  update_append state xs ys := (List.append_assoc state xs ys).symm

/-- `readHashAndContent_of_chunks` for a file with the content `abc`, which is read in two
pieces. -/
theorem readHashAndContent_abc :
    abcHasher.readHashAndContent 1024 ⟨.ok (true, 3), .ok 3, quietTurns [[0x61], [0x62, 0x63]]⟩ =
        .ok (⟨abcHasher.digest [0x61, 0x62, 0x63], 3⟩,
          [0x61, 0x62, 0x63].take (min 3 contentInspectionBytes)) :=
  (readHashAndContent_of_chunks abcHasher
    ⟨fun _ => "", fun _ _ => .ok [], fun _ => none, fun _ => none⟩ ⟨[], [], 1024⟩
    ⟨fun _ => none, fun _ => none, ""⟩ "abc.txt" 1024 (.ok (true, 3)) 3 [0x61, 0x62, 0x63]
    [[0x61], [0x62, 0x63]] rfl (by simp [Filled, bufferSize]) (by decide)).1

end chunks

/-! ## The limit on the size -/

section limit

variable (engine : Engine) (scanner : FileScanner) (context : ScanContext) (path : String)
  (reads : FileReads)

/-- The bytes that are read of a file for which there is a limit.
Source: `scan.rs`, `read_hash_and_content` -/
def readBytes (maximumBytes : ℕ) (reads : FileReads) : List UInt8 :=
  match reads.opened with
  | .error _ => []
  | .ok sizeBytes => if maximumBytes < sizeBytes.toNat then [] else takenBytes reads.turns

/-- The limit on the size is hard: a result says how many bytes were hashed, which are no more than
the limit allows, and no more is read than that and what the buffer holds. -/
structure HardLimit : Prop where
  hashed : ∀ hash content,
    readHashAndContent engine scanner.maximumBytes reads = .ok (hash, content) →
    (readBytes scanner.maximumBytes reads).length = hash.sizeBytes.toNat ∧
      hash.sizeBytes.toNat ≤ scanner.maximumBytes
  hashFile : ∀ hash, hashFile engine scanner.maximumBytes reads = .ok hash →
    (readBytes scanner.maximumBytes reads).length = hash.sizeBytes.toNat ∧
      hash.sizeBytes.toNat ≤ scanner.maximumBytes
  scanFile : ∀ finding, scanFile engine scanner context path reads = .ok finding →
    (readBytes scanner.maximumBytes reads).length = finding.sizeBytes.toNat ∧
      finding.sizeBytes.toNat ≤ scanner.maximumBytes
  read : (readBytes scanner.maximumBytes reads).length ≤ scanner.maximumBytes + bufferSize

/-- What the reads give agrees with the size that the file had when it was opened: it is that many
bytes up to the end of the file, or the loop stops in time without coming to it. -/
def SizeKept (maximumBytes : ℕ) (reads : FileReads) : Prop :=
  ∀ sizeBytes, reads.opened = .ok sizeBytes → sizeBytes.toNat ≤ maximumBytes →
    if reachesEnd reads.turns then (takenBytes reads.turns).length = sizeBytes.toNat
    else (takenBytes reads.turns).length ≤ maximumBytes + bufferSize

variable {engine scanner context path reads}

/-- What a result says of the reads. -/
theorem readHashAndContent_ok {maximumBytes : ℕ} {hash : HashOutcome} {content : List UInt8}
    (h : readHashAndContent engine maximumBytes reads = .ok (hash, content)) :
    reads.opened = .ok hash.sizeBytes ∧ hash.sizeBytes.toNat ≤ maximumBytes ∧
      reachesEnd reads.turns = true ∧ readBytes maximumBytes reads = takenBytes reads.turns := by
  unfold readHashAndContent at h
  unfold readBytes
  cases hopened : reads.opened with
  | error error => simp [hopened] at h
  | ok sizeBytes =>
      simp only [hopened] at h ⊢
      split_ifs at h ⊢ with hsize
      by_cases hend : reachesEnd reads.turns = true
      · rw [readTurns_of_reachesEnd hend] at h
        obtain ⟨rfl, -⟩ := Prod.mk.inj (Except.ok.inj h)
        exact ⟨rfl, not_lt.mp hsize, hend, rfl⟩
      · obtain ⟨error, herror⟩ := readTurns_of_not_reachesEnd hend [] []
        rw [herror] at h
        cases h

/-- When the reads agree with the size, a result does. -/
theorem SizeKept.length_readBytes {hash : HashOutcome} {content : List UInt8}
    (hkept : SizeKept scanner.maximumBytes reads)
    (h : readHashAndContent engine scanner.maximumBytes reads = .ok (hash, content)) :
    (readBytes scanner.maximumBytes reads).length = hash.sizeBytes.toNat ∧
      hash.sizeBytes.toNat ≤ scanner.maximumBytes := by
  obtain ⟨hopened, hsize, hend, hbytes⟩ := readHashAndContent_ok h
  have hlength := hkept hash.sizeBytes hopened hsize
  rw [if_pos hend] at hlength
  exact ⟨hbytes ▸ hlength, hsize⟩

theorem SizeKept.length_readBytes_le (hkept : SizeKept scanner.maximumBytes reads) :
    (readBytes scanner.maximumBytes reads).length ≤ scanner.maximumBytes + bufferSize := by
  unfold readBytes
  cases hopened : reads.opened with
  | error error => simp
  | ok sizeBytes =>
      simp only
      split_ifs with hsize
      · simp
      · have hlength := hkept sizeBytes hopened (not_lt.mp hsize)
        split_ifs at hlength
        · omega
        · exact hlength

/-- **The limit on the size is kept exactly when the reads agree with the size** that the file had
when it was opened. -/
theorem hardLimit_iff (engine : Engine) (scanner : FileScanner) (context : ScanContext)
    (path : String) (reads : FileReads) :
    HardLimit engine scanner context path reads ↔ SizeKept scanner.maximumBytes reads := by
  constructor
  · intro h sizeBytes hopened hsize
    have hread : readBytes scanner.maximumBytes reads = takenBytes reads.turns := by
      simp only [readBytes, hopened, if_neg hsize.not_gt]
    split_ifs with hend
    · have hok : readHashAndContent engine scanner.maximumBytes reads =
          .ok (⟨engine.sha256 (takenBytes reads.turns), sizeBytes⟩,
            (takenBytes reads.turns).take contentInspectionBytes) := by
        simp only [readHashAndContent, hopened, if_neg hsize.not_gt, readTurns_of_reachesEnd hend]
        simp [Except.map]
      exact hread ▸ (h.hashed _ _ hok).1
    · exact hread ▸ h.read
  · intro hkept
    refine ⟨fun hash content h => hkept.length_readBytes h, ?_, ?_, hkept.length_readBytes_le⟩
    · intro hash h
      unfold Detection.hashFile at h
      cases hresult : readHashAndContent engine scanner.maximumBytes reads with
      | error error => simp [hresult, Except.map] at h
      | ok result =>
          rw [hresult] at h
          obtain rfl : result.1 = hash := Except.ok.inj h
          exact hkept.length_readBytes hresult
    · intro finding h
      obtain ⟨fileSize, hash, content, rules, -, hresult, -, rfl⟩ := scanFile_eq_ok h
      exact hkept.length_readBytes hresult

/-- A file that has four bytes when it is opened, and five when it is read: five bytes are hashed,
and four are reported. -/
theorem grown_not_hardLimit :
    ¬HardLimit ⟨fun _ => "", fun _ _ => .ok [], fun _ => none, fun _ => none⟩ ⟨[], [], 4⟩
        ⟨fun _ => none, fun _ => none, ""⟩ "log.txt"
        ⟨.ok (true, 4), .ok 4, quietTurns [[1, 2, 3, 4, 5]]⟩ := by
  intro h
  have hhashed := (h.hashed ⟨"", 4⟩ [1, 2, 3, 4, 5] rfl).1
  simp [readBytes, quietTurns, takenBytes] at hhashed

end limit

end OpenGuard.Detection
