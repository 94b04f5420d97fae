import Mathlib.Data.List.Basic

/-!
# Byte streams with short reads

A stream is read through a source that gives its bytes in pieces of any size, may be interrupted
between them, and may fail or end. `readExact` reads a given number of bytes and asks again until
it has them.

* `readExact_front`: it takes a prefix of what the source still has, and never more bytes than it
  was asked for.
* `readExact_of_le`, `readExact_of_lt`: from a source that neither fails nor ends too early it reads
  exactly the next bytes, however they are cut; at the end of the stream it fails.
-/

namespace OpenGuard.Lib

/-- What a source answers to one read: bytes, of which those beyond the buffer are kept for the next
read, an interruption, or an error. -/
inductive ReadEvent (ε : Type*) where
  | chunk (bytes : List UInt8)
  | interrupted
  | failed (error : ε)

/-- The answers that a source has still to give; after them it is at its end. -/
abbrev Source (ε : Type*) := List (ReadEvent ε)

namespace Source

variable {ε : Type*}

/-- The bytes that the source still has. -/
def contents : Source ε → List UInt8
  | [] => []
  | .chunk bytes :: rest => bytes ++ contents rest
  | .interrupted :: rest => contents rest
  | .failed _ :: rest => contents rest

/-- No read fails, and none before the end gives nothing. -/
def Reliable : Source ε → Prop
  | [] => True
  | .chunk bytes :: rest => bytes ≠ [] ∧ Reliable rest
  | .interrupted :: rest => Reliable rest
  | .failed _ :: _ => False

/-- Reads exactly as many bytes; `atEnd` is the error of a source that ends before.
`std::io::Read::read_exact`. -/
def readExact (atEnd : ε) : ℕ → Source ε → Except ε (List UInt8) × Source ε
  | 0, source => (.ok [], source)
  | _ + 1, [] => (.error atEnd, [])
  | count + 1, .interrupted :: rest => readExact atEnd (count + 1) rest
  | _ + 1, .failed error :: rest => (.error error, rest)
  | count + 1, .chunk bytes :: rest =>
      if bytes = [] then (.error atEnd, rest)
      else if count + 1 < bytes.length then
        (.ok (bytes.take (count + 1)), .chunk (bytes.drop (count + 1)) :: rest)
      else
        let (read, source) := readExact atEnd (count + 1 - bytes.length) rest
        (read.map (bytes ++ ·), source)

section readExact

variable {count : ℕ} {source : Source ε}

/-- What is read is the front of the contents. -/
theorem readExact_front (atEnd : ε) (count : ℕ) (source : Source ε) :
    ∃ taken, source.contents = taken ++ (readExact atEnd count source).2.contents ∧
      taken.length ≤ count ∧
      ∀ bytes, (readExact atEnd count source).1 = .ok bytes →
        taken = bytes ∧ bytes.length = count := by
  induction source generalizing count with
  | nil =>
      cases count with
      | zero => exact ⟨[], rfl, Nat.le_refl _, by simp [readExact]⟩
      | succ count => exact ⟨[], rfl, Nat.zero_le _, by simp [readExact]⟩
  | cons event rest ih =>
      cases count with
      | zero => exact ⟨[], rfl, Nat.le_refl _, by simp [readExact]⟩
      | succ count =>
          cases event with
          | interrupted => exact ih (count + 1)
          | failed error => exact ⟨[], rfl, Nat.zero_le _, by simp [readExact]⟩
          | chunk bytes =>
              simp only [readExact]
              split_ifs with hempty hlong
              · exact ⟨[], by simp [contents, hempty], Nat.zero_le _, by simp⟩
              · refine ⟨bytes.take (count + 1), ?_, List.length_take_le _ _, ?_⟩
                · rw [contents, contents, ← List.append_assoc, List.take_append_drop]
                · intro read hread
                  rw [← Except.ok.inj hread, List.length_take]
                  exact ⟨rfl, by omega⟩
              · obtain ⟨taken, hcontents, hlength, hread⟩ := ih (count + 1 - bytes.length)
                refine ⟨bytes ++ taken, ?_, ?_, ?_⟩
                · rw [contents, hcontents, List.append_assoc]
                · rw [List.length_append]
                  omega
                · intro read heq
                  cases hrest : (readExact atEnd (count + 1 - bytes.length) rest).1 with
                  | error error =>
                      rw [hrest] at heq
                      cases heq
                  | ok more =>
                      rw [hrest] at heq
                      obtain ⟨htaken, hcount⟩ := hread more hrest
                      rw [← Except.ok.inj heq, htaken, List.length_append]
                      exact ⟨rfl, by omega⟩

/-- From a reliable source the bytes are read however they are cut. -/
theorem readExact_of_le (atEnd : ε) (hreliable : source.Reliable)
    (h : count ≤ source.contents.length) :
    ∃ rest, readExact atEnd count source = (.ok (source.contents.take count), rest) ∧
      rest.contents = source.contents.drop count ∧ rest.Reliable := by
  induction source generalizing count with
  | nil =>
      obtain rfl : count = 0 := Nat.le_zero.mp h
      exact ⟨[], rfl, rfl, trivial⟩
  | cons event rest ih =>
      cases count with
      | zero => exact ⟨_, rfl, rfl, hreliable⟩
      | succ count =>
          cases event with
          | interrupted => exact ih hreliable h
          | failed error => exact hreliable.elim
          | chunk bytes =>
              obtain ⟨hne, hrest⟩ := hreliable
              simp only [contents, List.length_append] at h
              simp only [readExact, hne, if_false, contents]
              split_ifs with hlong
              · refine ⟨_, Prod.ext ?_ rfl, ?_, ?_, hrest⟩
                · rw [List.take_append_of_le_length (Nat.le_of_lt hlong)]
                · rw [contents, List.drop_append_of_le_length (Nat.le_of_lt hlong)]
                · rw [Ne, List.drop_eq_nil_iff]
                  omega
              · have hshort : bytes.length ≤ count + 1 := Nat.le_of_not_lt hlong
                have hrestLength : count + 1 - bytes.length ≤ (contents rest).length := by omega
                obtain ⟨after, hread, hcontents, hafter⟩ := ih hrest hrestLength
                refine ⟨after, ?_, ?_, hafter⟩
                · rw [hread, List.take_append]
                  simp only [Except.map, Prod.mk.injEq, and_true, Except.ok.injEq]
                  rw [List.take_of_length_le hshort]
                · rw [hcontents, List.drop_append, List.drop_of_length_le hshort, List.nil_append]

/-- At the end of a reliable source there is an error. -/
theorem readExact_of_lt (atEnd : ε) (hreliable : source.Reliable)
    (h : source.contents.length < count) :
    (readExact atEnd count source).1 = .error atEnd := by
  induction source generalizing count with
  | nil =>
      cases count with
      | zero => exact absurd h (Nat.not_lt_zero _)
      | succ count => rfl
  | cons event rest ih =>
      cases count with
      | zero => exact absurd h (Nat.not_lt_zero _)
      | succ count =>
          cases event with
          | interrupted => exact ih hreliable h
          | failed error => exact hreliable.elim
          | chunk bytes =>
              obtain ⟨hne, hrest⟩ := hreliable
              simp only [contents, List.length_append] at h
              simp only [readExact, hne, if_false]
              rw [if_neg (by omega), ih hrest (by omega)]
              rfl

end readExact

end Source

end OpenGuard.Lib
