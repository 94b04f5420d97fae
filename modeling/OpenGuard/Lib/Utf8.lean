import Mathlib.Data.String.Basic

/-!
# Bytes as text

`fromUtf8Lossy` is what `String::from_utf8_lossy` makes of bytes: their characters, with the
replacement character for every part that is the beginning of no character.
-/

namespace OpenGuard.Lib

/-- How many bytes a character takes whose first byte this is; none takes zero. -/
def utf8Width (first : UInt8) : ℕ :=
  if first < 0x80 then 1
  else if 0xC2 ≤ first ∧ first ≤ 0xDF then 2
  else if 0xE0 ≤ first ∧ first ≤ 0xEF then 3
  else if 0xF0 ≤ first ∧ first ≤ 0xF4 then 4
  else 0

/-- A byte that goes on with a character. -/
def isContinuation (b : UInt8) : Bool := 0x80 ≤ b && b ≤ 0xBF

/-- The byte may follow the first one: neither is the encoding longer than needed, nor is it that of
half of a pair, nor is it beyond the last character. -/
def isSecondByte (first b : UInt8) : Bool :=
  if first = 0xE0 then 0xA0 ≤ b && b ≤ 0xBF
  else if first = 0xED then 0x80 ≤ b && b ≤ 0x9F
  else if first = 0xF0 then 0x90 ≤ b && b ≤ 0xBF
  else if first = 0xF4 then 0x80 ≤ b && b ≤ 0x8F
  else isContinuation b

/-- The replacement character. -/
def replacementChar : Char := '\uFFFD'

/-- The character that starts with a byte, and what follows it. -/
def lossyChar (first : UInt8) (rest : List UInt8) : Char × List UInt8 :=
  let bits := fun b : UInt8 => b.toNat % 64
  match utf8Width first, rest with
  | 1, _ => (Char.ofNat first.toNat, rest)
  | 2, b :: after =>
      if isContinuation b then (Char.ofNat (first.toNat % 32 * 64 + bits b), after)
      else (replacementChar, rest)
  | 3, b :: after =>
      if isSecondByte first b then
        match after with
        | c :: after' =>
            if isContinuation c then
              (Char.ofNat ((first.toNat % 16 * 64 + bits b) * 64 + bits c), after')
            else (replacementChar, after)
        | [] => (replacementChar, after)
      else (replacementChar, rest)
  | 4, b :: after =>
      if isSecondByte first b then
        match after with
        | c :: after' =>
            if isContinuation c then
              match after' with
              | d :: after'' =>
                  if isContinuation d then
                    (Char.ofNat (((first.toNat % 8 * 64 + bits b) * 64 + bits c) * 64 + bits d),
                      after'')
                  else (replacementChar, after')
              | [] => (replacementChar, after')
            else (replacementChar, after)
        | [] => (replacementChar, after)
      else (replacementChar, rest)
  | _, _ => (replacementChar, rest)

/-- The characters of at most so many bytes. -/
def lossyChars : ℕ → List UInt8 → List Char
  | 0, _ => []
  | _, [] => []
  | fuel + 1, first :: rest =>
      let (c, after) := lossyChar first rest
      c :: lossyChars fuel after

/-- `String::from_utf8_lossy` -/
def fromUtf8Lossy (bytes : List UInt8) : String := String.ofList (lossyChars bytes.length bytes)

example : fromUtf8Lossy [0x61, 0xC3, 0xA4, 0xE2, 0x82, 0x62, 0xFF] = "aä\uFFFDb\uFFFD" := by decide

end OpenGuard.Lib
