import Mathlib.Data.Int.Notation
import Mathlib.Data.List.Basic

/-!
# JSON values

The tree of a JSON text. An object keeps its entries as they stand in the text, names that occur
twice included; a number is an integer or, with a fraction or an exponent or beyond 64 bits, the
text it has.

* `AddsField`: an object somewhere in a value gets another field.
* `AddsField.cases_object`, `AddsField.cases_array`: where that object can be.
-/

namespace OpenGuard.Lib

/-- A JSON value. -/
inductive Json where
  | null
  | bool (value : Bool)
  | int (value : ℤ)
  | float (text : String)
  | string (value : String)
  | array (items : List Json)
  | object (entries : List (String × Json))
  deriving Inhabited

namespace Json

/-- The value is an object or an array. -/
def isContainer : Json → Bool
  | .array _ => true
  | .object _ => true
  | _ => false

/-- One step into a value. -/
inductive Step where
  | field (name : String)
  | item (index : ℕ)
  deriving DecidableEq, Inhabited

/-- The field `name`, with a value, is added to the object at a path of the first value, which
gives the second. -/
inductive AddsField (name : String) (value : Json) : List Step → Json → Json → Prop where
  | here (front back : List (String × Json)) :
      AddsField name value [] (.object (front ++ back)) (.object (front ++ (name, value) :: back))
  | field (front back : List (String × Json)) (key : String) {path : List Step}
      {inner inner' : Json} (h : AddsField name value path inner inner') :
      AddsField name value (.field key :: path) (.object (front ++ (key, inner) :: back))
        (.object (front ++ (key, inner') :: back))
  | item (front back : List Json) {path : List Step} {inner inner' : Json}
      (h : AddsField name value path inner inner') :
      AddsField name value (.item front.length :: path) (.array (front ++ inner :: back))
        (.array (front ++ inner' :: back))

section addsField

variable {name : String} {value j : Json} {path : List Step}

/-- What gets a field is an object or an array, -/
theorem AddsField.isContainer_left {j' : Json} (h : AddsField name value path j j') :
    j.isContainer := by
  cases h <;> rfl

/-- and stays one. -/
theorem AddsField.isContainer_right {j' : Json} (h : AddsField name value path j j') :
    j'.isContainer := by
  cases h <;> rfl

/-- An object gets the field itself, or one of its values does. -/
theorem AddsField.cases_object {entries : List (String × Json)}
    (h : AddsField name value path (.object entries) j) :
    (∃ front back, path = [] ∧ entries = front ++ back ∧
      j = .object (front ++ (name, value) :: back)) ∨
    ∃ front back key rest inner inner', path = .field key :: rest ∧
      entries = front ++ (key, inner) :: back ∧ j = .object (front ++ (key, inner') :: back) ∧
      AddsField name value rest inner inner' := by
  generalize hobject : Json.object entries = object at h
  cases h with
  | here front back => exact .inl ⟨front, back, rfl, Json.object.inj hobject, rfl⟩
  | field front back key h =>
      exact .inr ⟨front, back, key, _, _, _, rfl, Json.object.inj hobject, rfl, h⟩
  | item front back h => cases hobject

/-- Of an array, one of the items gets the field. -/
theorem AddsField.cases_array {items : List Json}
    (h : AddsField name value path (.array items) j) :
    ∃ front back rest inner inner', path = .item front.length :: rest ∧
      items = front ++ inner :: back ∧ j = .array (front ++ inner' :: back) ∧
      AddsField name value rest inner inner' := by
  generalize harray : Json.array items = array at h
  cases h with
  | here front back => cases harray
  | field front back key h => cases harray
  | item front back h => exact ⟨front, back, _, _, _, rfl, Json.array.inj harray, rfl, h⟩

end addsField

end Json

end OpenGuard.Lib
