import OpenGuard.Lib.Machine
import OpenGuard.Windows.Error

/-!
# The rows of a network table

A function of Windows is called twice: it says how large a buffer it needs, and then fills one of that
size. What it leaves there is a number of rows and the rows, and the number is not trusted.

* `tableRows`: the rows, with every sum and product checked as the machine does it.
* `tableRows_inside`: **each row is read inside of the buffer**, or there is an error.
-/

namespace OpenGuard.Windows

open OpenGuard.Lib

/-- The two calls: the status and the size that each gives, and the buffer of the size that the first
one gave, as the second one leaves it. -/
structure TableCalls (width : ℕ) where
  first : UInt32 × UInt32
  second : UInt32 × UInt32
  buffer : Memory width
  allocated : buffer.bytes.length = first.2.toNat

/-- `ERROR_INSUFFICIENT_BUFFER` -/
def errorInsufficientBuffer : UInt32 := 122

section rows

variable {α : Type} {width : ℕ}

/-- One row.
Source: `windows/lib.rs`, `table_rows` -/
def readRow (rowSize : ℕ) (decode : List UInt8 → α) (buffer : Memory width) (index : ℕ) :
    Option α := do
  let offset ← addSize width 4 (← mulSize width index rowSize)
  return decode (← buffer.slice offset (offset + rowSize))

/-- Nothing comes of it when a sum or a product is no size, or a read leaves the buffer.
Source: `windows/lib.rs`, `table_rows` -/
def tableRows (api : String) (rowSize : ℕ) (decode : List UInt8 → α) (calls : TableCalls width) :
    Option (Except WindowsError (List α)) :=
  if calls.first.1 ≠ 0 ∧ calls.first.1 ≠ errorInsufficientBuffer then
    some (.error (.status api calls.first.1))
  else if calls.first.2 < 4 then some (.error .invalidTable)
  else if calls.second.1 ≠ 0 then some (.error (.status api calls.second.1))
  else do
    let count := (← calls.buffer.number 0) % 2 ^ width
    match (mulSize width count rowSize).bind (addSize width 4) with
    | none => return .error .invalidTable
    | some required =>
        if calls.buffer.bytes.length < required then return .error .invalidTable
        else return .ok (← (List.range count).mapM (readRow rowSize decode calls.buffer))

/-- The number of rows that the buffer says it has. -/
def rowCount (calls : TableCalls width) : ℕ := le32 calls.buffer.bytes 0

/-- The bytes of a row. -/
def rowBytes (rowSize index : ℕ) (calls : TableCalls width) : List UInt8 :=
  (calls.buffer.bytes.drop (4 + index * rowSize)).take rowSize

variable {api : String} {rowSize index : ℕ} {decode : List UInt8 → α} {calls : TableCalls width}

/-- The rows before the end of the buffer are all inside. -/
theorem row_inside {count : ℕ} (h : 4 + count * rowSize ≤ calls.buffer.bytes.length)
    (hindex : index < count) : 4 + index * rowSize + rowSize ≤ calls.buffer.bytes.length := by
  have hnext : (index + 1) * rowSize ≤ count * rowSize := Nat.mul_le_mul_right rowSize hindex
  rw [Nat.succ_mul] at hnext
  omega

theorem readRow_eq (h : 4 + index * rowSize + rowSize ≤ calls.buffer.bytes.length) :
    readRow rowSize decode calls.buffer index = some (decode (rowBytes rowSize index calls)) := by
  have hlength := calls.buffer.length_lt
  rw [readRow, mulSize_of_lt (by omega)]
  simp only [Option.bind_eq_bind, Option.bind_some, addSize_of_lt (show 4 + index * rowSize <
    2 ^ width by omega), Memory.slice_eq h]
  rfl

theorem le16_lt (content : List UInt8) (place : ℕ) : le16 content place < 65536 := by
  have hlow := (content.getD place 0).toNat_lt
  have hhigh := (content.getD (place + 1) 0).toNat_lt
  unfold le16
  omega

theorem rowCount_lt : rowCount calls < 2 ^ 32 := by
  have hlow := le16_lt calls.buffer.bytes 0
  have hhigh := le16_lt calls.buffer.bytes (0 + 2)
  unfold rowCount le32
  omega

/-- What the calls make of a table. -/
theorem tableRows_eq (hwidth : 32 ≤ width) : tableRows api rowSize decode calls =
    some (if calls.first.1 ≠ 0 ∧ calls.first.1 ≠ errorInsufficientBuffer then
        .error (.status api calls.first.1)
      else if calls.first.2 < 4 then .error .invalidTable
      else if calls.second.1 ≠ 0 then .error (.status api calls.second.1)
      else if calls.buffer.bytes.length < 4 + rowCount calls * rowSize then .error .invalidTable
      else .ok ((List.range (rowCount calls)).map fun index =>
        decode (rowBytes rowSize index calls))) := by
  unfold tableRows
  split_ifs with hfirst hsmall hsecond hshort
  · rfl
  · rfl
  · rfl
  all_goals
    have hlarge : 0 + 4 ≤ calls.buffer.bytes.length := by
      rw [UInt32.lt_iff_toNat_lt, Nat.not_lt] at hsmall
      rw [calls.allocated]
      exact hsmall
    have hcount : le32 calls.buffer.bytes 0 % 2 ^ width = rowCount calls := by
      refine Nat.mod_eq_of_lt (Nat.lt_of_lt_of_le rowCount_lt ?_)
      exact Nat.pow_le_pow_right (by decide) hwidth
    have hlength := calls.buffer.length_lt
    simp only [Memory.number_eq hlarge, Option.bind_eq_bind, Option.bind_some, hcount,
      mulSize_bind_addSize]
  · by_cases hfits : 4 + rowCount calls * rowSize < 2 ^ width
    · simp only [if_pos hfits, if_pos hshort]
      rfl
    · simp only [if_neg hfits]
      rfl
  · have hrows : (List.range (rowCount calls)).mapM (readRow rowSize decode calls.buffer) =
        some ((List.range (rowCount calls)).map fun index =>
          decode (rowBytes rowSize index calls)) := by
      refine mapM_eq_map fun index hindex => readRow_eq ?_
      exact row_inside (Nat.not_lt.mp hshort) (List.mem_range.mp hindex)
    simp only [if_pos (show 4 + rowCount calls * rowSize < 2 ^ width by omega), if_neg hshort,
      hrows, Option.bind_some]
    rfl

/-- **Every row is read inside of the buffer.** Whatever the two calls say of sizes and rows, no sum and
no product overflows and no byte outside of the buffer is read: there is an error, or there are as
many rows as the buffer says, each decoded from its own bytes. -/
theorem tableRows_inside (hwidth : 32 ≤ width) :
    ∃ outcome, tableRows api rowSize decode calls = some outcome ∧
      (outcome = .error .invalidTable ∨ (∃ status, outcome = .error (.status api status)) ∨
        ∃ rows, outcome = .ok rows ∧ rows.length = rowCount calls ∧
          4 + rowCount calls * rowSize < 2 ^ width ∧
          ∀ index < rowCount calls,
            4 + index * rowSize + rowSize ≤ calls.buffer.bytes.length ∧
              (rowBytes rowSize index calls).length = rowSize ∧
              rows[index]? = some (decode (rowBytes rowSize index calls))) := by
  refine ⟨_, tableRows_eq hwidth, ?_⟩
  split_ifs with hfirst hsmall hsecond hshort
  · exact .inr (.inl ⟨_, rfl⟩)
  · exact .inl rfl
  · exact .inr (.inl ⟨_, rfl⟩)
  · exact .inl rfl
  · have hlength := calls.buffer.length_lt
    refine .inr (.inr ⟨_, rfl, by simp, by omega, fun index hindex => ?_⟩)
    have hinside := row_inside (Nat.not_lt.mp hshort) hindex
    refine ⟨hinside, ?_, by simp [hindex]⟩
    rw [rowBytes, List.length_take, List.length_drop]
    omega

end rows

/-- Two rows of two bytes, in a buffer with room for one more byte. -/
def twoRows : TableCalls 32 where
  first := (122, 9)
  second := (0, 12)
  buffer := ⟨[2, 0, 0, 0, 10, 11, 20, 21, 0], by decide⟩
  allocated := rfl

/-- `tableRows_inside` for a table of two rows, on a machine with 32 bits. -/
theorem tableRows_two :
    ∃ outcome, tableRows "GetExtendedTcpTable" 2 id twoRows = some outcome ∧
      (outcome = .error .invalidTable ∨
        (∃ status, outcome = .error (.status "GetExtendedTcpTable" status)) ∨
        ∃ rows, outcome = .ok rows ∧ rows.length = rowCount twoRows ∧
          4 + rowCount twoRows * 2 < 2 ^ 32 ∧
          ∀ index < rowCount twoRows,
            4 + index * 2 + 2 ≤ twoRows.buffer.bytes.length ∧
              (rowBytes 2 index twoRows).length = 2 ∧
              rows[index]? = some (id (rowBytes 2 index twoRows))) :=
  tableRows_inside (Nat.le_refl 32)

end OpenGuard.Windows
