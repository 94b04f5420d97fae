import OpenGuard.Lib.Json
import OpenGuard.Lib.Text
import Mathlib.Algebra.BigOperators.Group.List.Basic
import Mathlib.Algebra.Ring.Nat

/-!
# JSON texts

The compact text of a JSON value, without white space, and the number of its bytes.

* `render`: the text of a value.
* `byteSize`: how many bytes it has, `utf8ByteSize_render`.
-/

namespace OpenGuard.Lib

/-- The bytes of a list of characters in UTF-8. -/
def charBytes (chars : List Char) : ℕ := (chars.map Char.utf8Size).sum

/-- The characters that stand for one character of a string. -/
def escape (c : Char) : List Char :=
  if c = '"' then ['\\', '"']
  else if c = '\\' then ['\\', '\\']
  else if c = '\x08' then ['\\', 'b']
  else if c = '\t' then ['\\', 't']
  else if c = '\n' then ['\\', 'n']
  else if c = '\x0c' then ['\\', 'f']
  else if c = '\r' then ['\\', 'r']
  else if c.toNat < 32 then
    ['\\', 'u', '0', '0', Nat.digitChar (c.toNat / 16), Nat.digitChar (c.toNat % 16)]
  else [c]

/-- The bytes of a text within quotation marks. -/
def escapedBytes (s : String) : ℕ := (s.toList.map fun c => charBytes (escape c)).sum

namespace Json

/-- A string within quotation marks. -/
def quoted (s : String) : String := "\"" ++ String.ofList (s.toList.flatMap escape) ++ "\""

mutual

/-- The compact text of a value. -/
def render : Json → String
  | null => "null"
  | bool value => if value then "true" else "false"
  | int value => toString value
  | float text => text
  | string value => quoted value
  | array items => "[" ++ joinWith "," (renderItems items) ++ "]"
  | object entries => "\x7b" ++ joinWith "," (renderEntries entries) ++ "\x7d"

def renderItems : List Json → List String
  | [] => []
  | item :: rest => render item :: renderItems rest

def renderEntries : List (String × Json) → List String
  | [] => []
  | (name, value) :: rest => (quoted name ++ ":" ++ render value) :: renderEntries rest

end

/-- The bytes of the text. -/
def byteSize (j : Json) : ℕ := (render j).utf8ByteSize

/-- The bytes of a field of an object. -/
def entryBytes (entry : String × Json) : ℕ := escapedBytes entry.1 + 3 + byteSize entry.2

/-! ## Sizes -/

section sizes

theorem charBytes_append (l₁ l₂ : List Char) :
    charBytes (l₁ ++ l₂) = charBytes l₁ + charBytes l₂ := by
  simp [charBytes]

theorem utf8ByteSize_ofList (l : List Char) : (String.ofList l).utf8ByteSize = charBytes l := by
  induction l with
  | nil => rfl
  | cons c l ih =>
      rw [← List.singleton_append, String.ofList_append, String.utf8ByteSize_append, ih,
        charBytes_append]
      simp [charBytes]

theorem charBytes_flatMap_escape (l : List Char) :
    charBytes (l.flatMap escape) = (l.map fun c => charBytes (escape c)).sum := by
  induction l with
  | nil => rfl
  | cons c l ih => rw [List.flatMap_cons, charBytes_append, ih, List.map_cons, List.sum_cons]

theorem utf8ByteSize_quoted (s : String) : (quoted s).utf8ByteSize = escapedBytes s + 2 := by
  rw [quoted, String.utf8ByteSize_append, String.utf8ByteSize_append,
    utf8ByteSize_ofList (s.toList.flatMap escape), charBytes_flatMap_escape]
  show 1 + escapedBytes s + 1 = _
  omega

/-- A joined list has its items and one separator between any two of them. -/
theorem utf8ByteSize_joinWith_comma (texts : List String) :
    (joinWith "," texts).utf8ByteSize =
      (texts.map String.utf8ByteSize).sum + (texts.length - 1) := by
  induction texts with
  | nil => rfl
  | cons text texts ih =>
      cases texts with
      | nil => simp [joinWith]
      | cons next rest =>
          rw [joinWith, String.utf8ByteSize_append, String.utf8ByteSize_append, ih]
          simp only [List.map_cons, List.sum_cons, List.length_cons]
          show text.utf8ByteSize + 1 + _ = _
          omega

theorem renderItems_eq_map (items : List Json) : renderItems items = items.map render := by
  induction items with
  | nil => rfl
  | cons item rest ih => rw [renderItems, ih, List.map_cons]

theorem map_renderEntries (entries : List (String × Json)) :
    (renderEntries entries).map String.utf8ByteSize = entries.map entryBytes := by
  induction entries with
  | nil => rfl
  | cons entry rest ih =>
      rw [renderEntries, List.map_cons, ih, List.map_cons, String.utf8ByteSize_append,
        String.utf8ByteSize_append, utf8ByteSize_quoted]
      rfl

/-- A character that is not itself takes at most six bytes. -/
theorem charBytes_escape_le_six (c : Char) : charBytes (escape c) ≤ 6 ∨ escape c = [c] := by
  have hcontrol : ∀ n < 32,
      charBytes ['\\', 'u', '0', '0', Nat.digitChar (n / 16), Nat.digitChar (n % 16)] ≤ 6 := by
    decide
  unfold escape
  split_ifs with _ _ _ _ _ _ _ h
  · exact .inl (by decide)
  · exact .inl (by decide)
  · exact .inl (by decide)
  · exact .inl (by decide)
  · exact .inl (by decide)
  · exact .inl (by decide)
  · exact .inl (by decide)
  · exact .inl (hcontrol c.toNat h)
  · exact .inr rfl

/-- One byte of a text takes at most six. -/
theorem escapedBytes_le (s : String) : escapedBytes s ≤ 6 * s.utf8ByteSize := by
  have hchar : ∀ c : Char, charBytes (escape c) ≤ 6 * c.utf8Size := by
    intro c
    have hpos := c.utf8Size_pos
    rcases charBytes_escape_le_six c with hle | hself
    · omega
    · rw [hself]
      simp only [charBytes, List.map_cons, List.map_nil, List.sum_cons, List.sum_nil]
      omega
  rw [← String.ofList_toList (s := s), utf8ByteSize_ofList, escapedBytes, String.toList_ofList]
  induction s.toList with
  | nil => simp [charBytes]
  | cons c l ih =>
      have hfirst := hchar c
      rw [← List.singleton_append (l := l), charBytes_append, List.map_append, List.sum_append]
      simp only [List.map_cons, List.map_nil, List.sum_cons, List.sum_nil]
      have hself : charBytes [c] = c.utf8Size := by simp [charBytes]
      omega

@[simp] theorem byteSize_null : byteSize null = 4 := rfl

@[simp] theorem byteSize_true : byteSize (bool true) = 4 := rfl

@[simp] theorem byteSize_false : byteSize (bool false) = 5 := rfl

@[simp] theorem byteSize_int (n : ℤ) : byteSize (int n) = (toString n).utf8ByteSize := rfl

@[simp] theorem byteSize_string (s : String) : byteSize (string s) = escapedBytes s + 2 :=
  utf8ByteSize_quoted s

@[simp] theorem byteSize_array (items : List Json) :
    byteSize (array items) = (items.map byteSize).sum + (items.length - 1) + 2 := by
  rw [byteSize, render, String.utf8ByteSize_append, String.utf8ByteSize_append,
    utf8ByteSize_joinWith_comma, renderItems_eq_map, List.map_map, List.length_map]
  show 1 + ((items.map byteSize).sum + _) + 1 = _
  omega

@[simp] theorem byteSize_object (entries : List (String × Json)) :
    byteSize (object entries) = (entries.map entryBytes).sum + (entries.length - 1) + 2 := by
  have hlength : (renderEntries entries).length = entries.length := by
    rw [← List.length_map, map_renderEntries, List.length_map]
  rw [byteSize, render, String.utf8ByteSize_append, String.utf8ByteSize_append,
    utf8ByteSize_joinWith_comma, map_renderEntries, hlength]
  show 1 + ((entries.map entryBytes).sum + _) + 1 = _
  omega

end sizes

end Json

end OpenGuard.Lib
