import OpenGuard.Lib.Table
import Mathlib.Data.List.Basic

/-!
# Files and the copying of a payload

Files are byte sequences by path. A copy reads chunks from an open file and writes each to another
one; the environment chooses the chunks and where a read or a write fails. `copyChunk` is one turn
of the loop of `hash_copy`, `hashCopy` the loop.

* `CopyState.Exact`: what has been hashed is what has been written, and with what remains it is
  the content of the source.
* `hashCopy_spec`: the copy succeeds exactly when no failure of the script is met before the end
  of the content (`copyCompletes`); then the destination has the content and the digest is its
  digest.
-/

namespace OpenGuard.Service

open OpenGuard.Lib

/-- The content of a file. -/
abbrev Bytes := List UInt8

/-- The files by their path. -/
abbrev Files := Table String Bytes

/-- Source: `main.rs`, `QUARANTINE_MAGIC` -/
def quarantineMagic : Bytes :=
  ("OPENGUARD-QUARANTINE-V1".toList.map fun c => UInt8.ofNat c.toNat) ++ [0]

/-- The size of the buffer of `hash_copy`. -/
def copyBufferSize : ℕ := 1024 * 1024

/-- What the environment does in one turn of the copying loop: the read fails; or a chunk of some
size is read and written; or it is read, and the write fails after some bytes. -/
inductive CopyStep where
  | readError
  | copied (size : ℕ)
  | writeError (size written : ℕ)
  deriving DecidableEq, Inhabited

/-- The state of the loop: the bytes of the source that are still to be read, those the hasher has
seen, and those written to the destination. -/
structure CopyState where
  remaining : Bytes
  hashed : Bytes
  written : Bytes
  deriving DecidableEq, Inhabited

/-- A copy that starts. -/
def CopyState.start (content : Bytes) : CopyState := ⟨content, [], []⟩

/-- How a turn of the loop ends: the loop goes on, it is over, or it fails with a message. -/
inductive CopyOutcome where
  | running (state : CopyState)
  | finished
  | failed (message : String) (written : Bytes)
  deriving DecidableEq

/-- The number of bytes a read returns: at least one while there is one, at most the buffer. -/
def chunkSize (size : ℕ) : ℕ := max 1 (min size copyBufferSize)

/-- One turn of the loop.
Source: `main.rs`, `hash_copy` -/
def copyChunk (step : CopyStep) (state : CopyState) : CopyOutcome :=
  match step, state.remaining with
  | .readError, _ => .failed "read file payload" state.written
  | _, [] => .finished
  | .copied size, remaining =>
      .running
        { remaining := remaining.drop (chunkSize size)
          hashed := state.hashed ++ remaining.take (chunkSize size)
          written := state.written ++ remaining.take (chunkSize size) }
  | .writeError size written, remaining =>
      .failed "write file payload"
        (state.written ++ (remaining.take (chunkSize size)).take written)

/-- The loop. When the script of the environment is used up, nothing fails any more. The result is
the digest or the message, and what the destination holds; `sha256` is the digest as hexadecimal
text.
Source: `main.rs`, `hash_copy` -/
def hashCopy (sha256 : Bytes → String) : List CopyStep → CopyState → Except String String × Bytes
  | [], state => (.ok (sha256 (state.hashed ++ state.remaining)), state.written ++ state.remaining)
  | step :: script, state =>
      match copyChunk step state with
      | .running state => hashCopy sha256 script state
      | .finished => (.ok (sha256 state.hashed), state.written)
      | .failed message written => (.error message, written)

/-- No failure of the script is met before the end of a content of some length is read. -/
def copyCompletes : List CopyStep → ℕ → Bool
  | [], _ => true
  | .readError :: _, _ => false
  | _ :: _, 0 => true
  | .copied size :: script, length => copyCompletes script (length - chunkSize size)
  | .writeError _ _ :: _, _ => false

/-! ## What a copy does -/

/-- The hasher has seen what was written, and the rest of the content remains. -/
def CopyState.Exact (content : Bytes) (state : CopyState) : Prop :=
  state.hashed = state.written ∧ state.written ++ state.remaining = content

section copy

variable {content : Bytes} {state next : CopyState} {step : CopyStep}

theorem CopyState.exact_start (content : Bytes) : (CopyState.start content).Exact content :=
  ⟨rfl, rfl⟩

/-- A turn that goes on keeps the state exact. -/
theorem CopyState.Exact.copyChunk (h : state.Exact content)
    (hstep : copyChunk step state = .running next) : next.Exact content := by
  unfold Service.copyChunk at hstep
  obtain ⟨hhashed, hcontent⟩ := h
  split at hstep
  · cases hstep
  · cases hstep
  · rw [← CopyOutcome.running.inj hstep]
    refine ⟨by rw [hhashed], ?_⟩
    dsimp only
    rw [List.append_assoc, List.take_append_drop]
    exact hcontent
  · cases hstep

/-- The loop is over only when everything is copied. -/
theorem CopyState.Exact.eq_of_finished (h : state.Exact content)
    (hstep : Service.copyChunk step state = .finished) :
    state.written = content ∧ state.hashed = content := by
  unfold Service.copyChunk at hstep
  have hnil : state.remaining = [] := by
    split at hstep
    · cases hstep
    · assumption
    · cases hstep
    · cases hstep
  have hwritten : state.written = content := by
    have hcontent := h.2
    rwa [hnil, List.append_nil] at hcontent
  exact ⟨hwritten, h.1.trans hwritten⟩

/-- What one turn says about the completion of the copy: it is left to the rest, true or false. -/
theorem copyCompletes_cons (script : List CopyStep) :
    copyCompletes (step :: script) state.remaining.length =
      match copyChunk step state with
      | .running next => copyCompletes script next.remaining.length
      | .finished => true
      | .failed _ _ => false := by
  unfold copyChunk
  cases step with
  | readError => rfl
  | copied size =>
      cases hremaining : state.remaining with
      | nil => rfl
      | cons b rest => exact congrArg (copyCompletes script) List.length_drop.symm
  | writeError size count => cases hremaining : state.remaining <;> rfl

/-- **What a copy does.** When no failure is met before the end, the destination has the whole
content and the digest is that of the content; otherwise the copy fails. -/
theorem hashCopy_spec (sha256 : Bytes → String) (script : List CopyStep) (h : state.Exact content) :
    (copyCompletes script state.remaining.length = true →
      hashCopy sha256 script state = (.ok (sha256 content), content)) ∧
    (copyCompletes script state.remaining.length = false →
      ∃ message written, hashCopy sha256 script state = (.error message, written)) := by
  induction script generalizing state with
  | nil =>
      refine ⟨fun _ => ?_, fun hfalse => absurd hfalse (by simp [copyCompletes])⟩
      unfold hashCopy
      rw [h.1, h.2]
  | cons step script ih =>
      rw [copyCompletes_cons]
      unfold hashCopy
      cases hstep : copyChunk step state with
      | running next => exact ih (h.copyChunk hstep)
      | finished =>
          obtain ⟨hwritten, hhashed⟩ := h.eq_of_finished hstep
          refine ⟨fun _ => ?_, fun hfalse => absurd hfalse (by simp)⟩
          dsimp only
          rw [hwritten, hhashed]
      | failed message written =>
          exact ⟨fun htrue => absurd htrue (by simp), fun _ => ⟨message, written, rfl⟩⟩

end copy

/-! ## A sample -/

/-- The three bytes `abc`. -/
def sampleContent : Bytes := [97, 98, 99]

/-- A function that is SHA-256 on `sampleContent`. -/
def sampleSha256 (content : Bytes) : String :=
  if content = sampleContent then
    "ba7816bf8f01cfea414140de5dae2223b00361a396177a9cb410ff61f20015ad"
  else ""

end OpenGuard.Service
