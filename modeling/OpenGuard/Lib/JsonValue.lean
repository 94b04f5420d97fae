import OpenGuard.Lib.JsonText
import Mathlib.Data.List.Sort

/-!
# JSON values as maps

The value `serde_json::Value` of a JSON text, in which every object is a map: of a name that occurs
twice the last value counts. The order of the entries has no meaning.

* `toValue`: the value of a text.
* `canonicalText`: its compact text with the keys in order.
-/

namespace OpenGuard.Lib

namespace Json

mutual

/-- The value of a text. -/
def toValue : Json → Json
  | array items => array (toValueItems items)
  | object entries => object (toValueEntries entries)
  | null => null
  | bool value => bool value
  | int value => int value
  | float text => float text
  | string value => string value

def toValueItems : List Json → List Json
  | [] => []
  | item :: rest => toValue item :: toValueItems rest

def toValueEntries : List (String × Json) → List (String × Json)
  | [] => []
  | (name, value) :: rest =>
      let later := toValueEntries rest
      if name ∈ later.map Prod.fst then later else (name, toValue value) :: later

end

/-- `Value::get` with the name of a field. -/
def get (name : String) : Json → Option Json
  | object entries => entries.lookup name
  | _ => none

/-- `Value::as_u64` -/
def asU64 : Json → Option ℕ
  | int value => if 0 ≤ value ∧ value < 2 ^ 64 then some value.toNat else none
  | _ => none

/-- `Value::is_array` -/
def isArray : Json → Bool
  | array _ => true
  | _ => false

mutual

/-- The value with the keys of its objects in order. -/
def sortKeys : Json → Json
  | array items => array (sortKeysItems items)
  | object entries => object ((sortKeysEntries entries).insertionSort fun a b => a.1 ≤ b.1)
  | null => null
  | bool value => bool value
  | int value => int value
  | float text => float text
  | string value => string value

def sortKeysItems : List Json → List Json
  | [] => []
  | item :: rest => sortKeys item :: sortKeysItems rest

def sortKeysEntries : List (String × Json) → List (String × Json)
  | [] => []
  | (name, value) :: rest => (name, sortKeys value) :: sortKeysEntries rest

end

/-- The compact text of a value with its keys in order. -/
def canonicalText (j : Json) : String := render (sortKeys j)

/-! ## Fields of values -/

section fields

variable {name : String} {j value : Json}

/-- The last value of a name counts. -/
theorem lookup_toValueEntries (entries : List (String × Json)) (name : String) :
    (toValueEntries entries).lookup name = (entries.reverse.lookup name).map toValue := by
  induction entries with
  | nil => rfl
  | cons entry rest ih =>
      obtain ⟨key, value⟩ := entry
      rw [toValueEntries, List.reverse_cons, List.lookup_append]
      by_cases hkey : name = key
      · subst hkey
        split_ifs with hmem
        · rw [ih]
          cases hfound : rest.reverse.lookup name with
          | some found => rfl
          | none =>
              -- the name is among the later ones, so that it has a value there
              rw [hfound] at ih
              obtain ⟨later, hlater, rfl⟩ := List.mem_map.mp hmem
              exact absurd (List.lookup_eq_none_iff.mp ih later hlater) (by simp)
        · have hnone : (toValueEntries rest).lookup name = none := by
            refine List.lookup_eq_none_iff.mpr fun later hlater => ?_
            have hother : name ≠ later.1 := fun heq =>
              hmem (List.mem_map.mpr ⟨later, hlater, heq.symm⟩)
            simpa using hother
          rw [ih, Option.map_eq_none_iff] at hnone
          simp [hnone]
      · have hne : (name == key) = false := by simpa using hkey
        have hlast : ∀ tail : List (String × Json),
            ((key, toValue value) :: tail).lookup name = tail.lookup name := by
          intro tail
          rw [List.lookup_cons, hne]
        have hfirst : [(key, value)].lookup name = none := by simp [hkey]
        rw [hfirst, Option.or_none, ← ih]
        split_ifs
        · rfl
        · exact hlast _

/-- A value that a name has only once is found from either end. -/
theorem lookup_reverse {entries : List (String × Json)} (h : (entries.map Prod.fst).Nodup)
    (name : String) : entries.reverse.lookup name = entries.lookup name := by
  induction entries with
  | nil => rfl
  | cons entry rest ih =>
      obtain ⟨key, value⟩ := entry
      obtain ⟨hnot, hrest⟩ := List.nodup_cons.mp h
      rw [List.reverse_cons, List.lookup_append, ih hrest]
      by_cases hkey : name = key
      · subst hkey
        have hnone : rest.lookup name = none := by
          refine List.lookup_eq_none_iff.mpr fun later hlater => ?_
          have hother : name ≠ later.1 := fun heq =>
            hnot (List.mem_map.mpr ⟨later, hlater, heq.symm⟩)
          simpa using hother
        simp [hnone]
      · have hne : (name == key) = false := by simpa using hkey
        simp only [List.lookup_cons, hne, List.lookup_nil, Option.or_none]

/-- A name is looked up among the entries with names of a kind. -/
theorem lookup_filter {entries : List (String × Json)} (p : String → Bool) (h : p name) :
    (entries.filter fun entry => p entry.1).lookup name = entries.lookup name := by
  induction entries with
  | nil => rfl
  | cons entry rest ih =>
      obtain ⟨key, value⟩ := entry
      rw [List.filter_cons, List.lookup_cons]
      split_ifs with hkey
      · rw [List.lookup_cons, ih]
      · have hne : (name == key) = false := by
          rw [beq_eq_false_iff_ne]
          rintro rfl
          exact hkey h
        rw [ih, hne]

/-- The same for the names of a struct. -/
theorem lookup_reverse_of_known {entries : List (String × Json)} {names : List String}
    (h : ((entries.filter (·.1 ∈ names)).map Prod.fst).Nodup) (hname : name ∈ names) :
    entries.reverse.lookup name = entries.lookup name := by
  have hknown : decide (name ∈ names) = true := decide_eq_true hname
  have hfiltered := lookup_reverse h name
  rw [← List.filter_reverse] at hfiltered
  rw [← lookup_filter (fun key => decide (key ∈ names)) hknown, hfiltered]
  exact lookup_filter (fun key => decide (key ∈ names)) hknown

/-- A number of a value is one of the text. -/
theorem eq_int_of_asU64_toValue {n : ℕ} (h : (toValue j).asU64 = some n) : j = int n := by
  cases j with
  | int value =>
      simp only [toValue, asU64] at h
      split_ifs at h with hrange
      rw [← Option.some.inj h, Int.toNat_of_nonneg hrange.1]
  | _ => cases h

/-- A list of a value is one of the text. -/
theorem exists_array_of_isArray_toValue (h : (toValue j).isArray) : ∃ items, j = array items := by
  cases j with
  | array items => exact ⟨items, rfl⟩
  | _ => cases h

/-- Only an object has fields. -/
theorem get_toValue (h : (toValue j).get name = some value) :
    ∃ entries found, j = .object entries ∧ entries.reverse.lookup name = some found ∧
      value = toValue found := by
  cases j with
  | object entries =>
      rw [toValue, get, lookup_toValueEntries] at h
      obtain ⟨found, hfound, rfl⟩ := Option.map_eq_some_iff.mp h
      exact ⟨entries, found, rfl, hfound, rfl⟩
  | _ => cases h

end fields

end Json

end OpenGuard.Lib
