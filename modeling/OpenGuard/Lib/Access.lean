import Mathlib.Data.List.Basic

/-!
# Contents that a call may fail to read

* `Access`: a content, and whether it can be read.
* `readAll`: the contents that can be read, of several.
* `granted`: the same content, readable.
-/

namespace OpenGuard.Lib

/-- A content, and whether a call can read it. -/
structure Access (α : Type*) where
  content : α
  readable : Bool
  deriving DecidableEq

namespace Access

variable {α β : Type*}

/-- The content, if it can be read. -/
def read (a : Access α) : Option α := if a.readable then some a.content else none

/-- The contents that can be read, as `flatten` leaves them of an iterator of results. -/
def readAll (items : List (Access α)) : List α := items.filterMap read

/-- The content, changed, and readable. -/
def granted (f : α → β) (a : Access α) : Access β := ⟨f a.content, true⟩

end Access

end OpenGuard.Lib
