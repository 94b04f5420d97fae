import Mathlib.Algebra.Ring.Nat
import Mathlib.Data.List.GetD
import Mathlib.Tactic.SplitIfs

/-!
# Sizes and memory of a machine

A size is a number below a power of two, and memory holds at most as many bytes as a signed size
counts. A step that would overflow, or read outside of its memory, gives nothing.

* `addSize`, `mulSize`, `saturatingAddSize`: sums and products of sizes.
* `Memory`: bytes in memory; `byteAt`, `bytesFrom`, `slice`, `number` read them.
* `bytesFrom_eq`, `slice_eq`, `number_eq`: what is read inside of the memory.
-/

namespace OpenGuard.Lib

/-! ## Sizes -/

/-- The sum, if it is a size. -/
def addSize (width a b : ℕ) : Option ℕ := if a + b < 2 ^ width then some (a + b) else none

/-- The product, if it is a size. -/
def mulSize (width a b : ℕ) : Option ℕ := if a * b < 2 ^ width then some (a * b) else none

/-- The sum, or the largest size. -/
def saturatingAddSize (width a b : ℕ) : ℕ := min (a + b) (2 ^ width - 1)

/-- A number as a size, or the largest size. -/
def sizeOrMaximum (width value : ℕ) : ℕ := min value (2 ^ width - 1)

section sizes

variable {width a b c : ℕ}

theorem addSize_of_lt (h : a + b < 2 ^ width) : addSize width a b = some (a + b) := if_pos h

theorem mulSize_of_lt (h : a * b < 2 ^ width) : mulSize width a b = some (a * b) := if_pos h

/-- The checked size of a header and so many rows. -/
theorem mulSize_bind_addSize : (mulSize width a b).bind (addSize width c) =
    if c + a * b < 2 ^ width then some (c + a * b) else none := by
  split_ifs with h
  · rw [mulSize_of_lt (by omega), Option.bind_some, addSize_of_lt h]
  · by_cases hproduct : a * b < 2 ^ width
    · rw [mulSize_of_lt hproduct, Option.bind_some, addSize, if_neg h]
    · rw [mulSize, if_neg hproduct, Option.bind_none]

end sizes

/-- A list that is read without a failure. -/
theorem mapM_eq_map {α β : Type} {f : α → Option β} {g : α → β} {items : List α}
    (h : ∀ item ∈ items, f item = some (g item)) : items.mapM f = some (items.map g) := by
  induction items with
  | nil => rfl
  | cons item items ih =>
      obtain ⟨hfirst, hrest⟩ := List.forall_mem_cons.mp h
      simp only [List.mapM_cons, hfirst, ih hrest, Option.pure_def, Option.bind_eq_bind,
        Option.bind_some, List.map_cons]

/-! ## Memory -/

/-- The number in two bytes, the lower one first. -/
def le16 (content : List UInt8) (place : ℕ) : ℕ :=
  (content.getD place 0).toNat + 256 * (content.getD (place + 1) 0).toNat

/-- The number in four bytes, the lower ones first. -/
def le32 (content : List UInt8) (place : ℕ) : ℕ :=
  le16 content place + 65536 * le16 content (place + 2)

/-- Bytes in memory. -/
structure Memory (width : ℕ) where
  bytes : List UInt8
  bounded : bytes.length < 2 ^ (width - 1)

namespace Memory

variable {width : ℕ} (memory : Memory width)

/-- The byte so far behind a place. -/
def byteAt (base offset : ℕ) : Option UInt8 := do memory.bytes[← addSize width base offset]?

/-- The bytes so far behind a place. -/
def bytesFrom (base : ℕ) (offsets : List ℕ) : Option (List UInt8) :=
  offsets.mapM fun offset => memory.byteAt base offset

/-- The bytes between two places. -/
def slice (start stop : ℕ) : Option (List UInt8) :=
  if start ≤ stop ∧ stop ≤ memory.bytes.length then
    some ((memory.bytes.drop start).take (stop - start))
  else none

/-- The number in four bytes of the memory. -/
def number (place : ℕ) : Option ℕ :=
  (memory.slice place (place + 4)).map fun bytes => le32 bytes 0

theorem length_lt : memory.bytes.length < 2 ^ width :=
  Nat.lt_of_lt_of_le memory.bounded (Nat.pow_le_pow_right (by decide) (Nat.sub_le _ _))

variable {memory} {base offset start stop : ℕ} {offsets : List ℕ} {found : List UInt8}

theorem byteAt_eq (h : base + offset < memory.bytes.length) :
    memory.byteAt base offset = some (memory.bytes.getD (base + offset) 0) := by
  rw [byteAt, addSize_of_lt (Nat.lt_trans h memory.length_lt), List.getD_eq_getElem _ _ h]
  exact List.getElem?_eq_getElem h

/-- Inside of the memory all bytes are read. -/
theorem bytesFrom_eq (h : ∀ offset ∈ offsets, base + offset < memory.bytes.length) :
    memory.bytesFrom base offsets =
      some (offsets.map fun offset => memory.bytes.getD (base + offset) 0) :=
  mapM_eq_map fun offset hoffset => byteAt_eq (h offset hoffset)

theorem slice_eq_some : memory.slice start stop = some found ↔
    start ≤ stop ∧ stop ≤ memory.bytes.length ∧
      (memory.bytes.drop start).take (stop - start) = found := by
  simp [slice, and_assoc]

theorem slice_eq (h : base + offset ≤ memory.bytes.length) :
    memory.slice base (base + offset) = some ((memory.bytes.drop base).take offset) :=
  slice_eq_some.mpr ⟨Nat.le_add_right _ _, h, by rw [Nat.add_sub_cancel_left]⟩

theorem number_eq (h : base + 4 ≤ memory.bytes.length) :
    memory.number base = some (le32 memory.bytes base) := by
  have hbyte (k : ℕ) (hk : k < 4) : ((memory.bytes.drop base).take 4).getD k 0 =
      memory.bytes.getD (base + k) 0 := by
    simp [List.getD_eq_getElem?_getD, hk]
  rw [number, slice_eq h, Option.map_some, le32, le16, le16, hbyte 0 (by decide),
    hbyte 1 (by decide), hbyte 2 (by decide), hbyte 3 (by decide)]
  rfl

end Memory

end OpenGuard.Lib
