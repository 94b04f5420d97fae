import OpenGuard.Lib.Json
import Mathlib.Algebra.Ring.Int.Defs
import Mathlib.Algebra.Ring.Nat
import Mathlib.Data.List.Nodup

/-!
# Decoding of JSON values

The derived decoders: structs, with or without the denial of unknown fields, enumerations without
data, and adjacently tagged enumerations. A value that stands before its tag is buffered first, and
is decoded from the buffer. Which error a value with several faults gets is not kept.

* `StrictDecoder`: a decoder that, wherever an unknown field is added to a value that it accepts,
  rejects the result. Structs that deny unknown fields are built from strict decoders only.
* `adjacent_addsField`: an adjacently tagged enumeration ignores unknown fields at its own level
  and at the level of its content, and nowhere else.
-/

namespace OpenGuard.Lib

/-- Why a value is rejected. -/
inductive DecodeError where
  | invalidType
  | invalidValue
  | invalidLength (length : ℕ)
  | unknownVariant (name : String)
  | unknownField (name : String)
  | duplicateField
  | missingField (name : String)
  deriving DecidableEq, Inhabited

/-- Where a value is decoded from. -/
inductive Origin where
  | text
  | buffer
  deriving DecidableEq, Inhabited

/-! ## The decoders -/

/-- `String` -/
def decodeString : Json → Except DecodeError String
  | .string value => .ok value
  | _ => .error .invalidType

/-- `bool` -/
def decodeBool : Json → Except DecodeError Bool
  | .bool value => .ok value
  | _ => .error .invalidType

/-- An unsigned number of so many bits. -/
def decodeUnsigned {α : Type} (bits : ℕ) (ofNat : ℕ → α) : Json → Except DecodeError α
  | .int value =>
      if 0 ≤ value ∧ value < 2 ^ bits then .ok (ofNat value.toNat) else .error .invalidValue
  | _ => .error .invalidType

/-- `i64` -/
def decodeI64 : Json → Except DecodeError ℤ
  | .int value =>
      if -2 ^ 63 ≤ value ∧ value < 2 ^ 63 then .ok value else .error .invalidValue
  | _ => .error .invalidType

/-- `Option` -/
def decodeOption {α : Type} (decode : Json → Except DecodeError α) :
    Json → Except DecodeError (Option α)
  | .null => .ok none
  | j => (decode j).map some

/-- `Vec` -/
def decodeVec {α : Type} (decode : Json → Except DecodeError α) :
    Json → Except DecodeError (List α)
  | .array items => items.mapM decode
  | _ => .error .invalidType

/-- The values that are read as `()`; an empty object only from a buffer. -/
def isUnit : Origin → Json → Bool
  | _, .null => true
  | .buffer, .object [] => true
  | _, _ => false

/-- The variant of that name. -/
def variantNamed {α : Type} (variants : List (String × α)) (name : String) :
    Except DecodeError α :=
  match variants.lookup name with
  | some variant => .ok variant
  | none => .error (.unknownVariant name)

/-- An enumeration without data: the name of a variant, alone or over a unit. -/
def decodeEnum {α : Type} (variants : List (String × α)) (origin : Origin) :
    Json → Except DecodeError α
  | .string name => variantNamed variants name
  | .object [(name, value)] =>
      if isUnit origin value then variantNamed variants name else .error .invalidType
  | _ => .error .invalidType

/-- The entries whose names the struct knows. -/
def knownEntries (names : List String) (deny : Bool) (entries : List (String × Json)) :
    Except DecodeError (List (String × Json)) :=
  match entries.find? fun entry => deny && entry.1 ∉ names with
  | some entry => .error (.unknownField entry.1)
  | none =>
      let kept := entries.filter (·.1 ∈ names)
      if (kept.map Prod.fst).Nodup then .ok kept else .error .duplicateField

/-- The entries of a struct, from an object or, in the order of the declaration, from an array;
`required` many fields have to be in the array. -/
def structEntries (names : List String) (required : ℕ) (deny : Bool) :
    Json → Except DecodeError (List (String × Json))
  | .object entries => knownEntries names deny entries
  | .array items =>
      if required ≤ items.length ∧ items.length ≤ names.length then .ok (names.zip items)
      else .error (.invalidLength items.length)
  | _ => .error .invalidType

/-- A field that has to be there. -/
def readField {α : Type} (found : List (String × Json)) (name : String)
    (decode : Json → Except DecodeError α) : Except DecodeError α :=
  match found.lookup name with
  | some value => decode value
  | none => .error (.missingField name)

/-- A field that may be left out. -/
def readFieldOr {α : Type} (found : List (String × Json)) (name : String)
    (decode : Json → Except DecodeError α) (fallback : α) : Except DecodeError α :=
  match found.lookup name with
  | some value => decode value
  | none => .ok fallback

/-! ## Strictness -/

/-- A value that is accepted is rejected once a field with an unknown name is added to it, at any
level. -/
def Strict {α : Type} (known : List String) (decode : Json → Except DecodeError α) : Prop :=
  ∀ ⦃name : String⦄ ⦃value : Json⦄ ⦃path : List Json.Step⦄ ⦃j j' : Json⦄, name ∉ known →
    Json.AddsField name value path j j' → (decode j).isOk → ¬(decode j').isOk

section strict

variable {α β : Type} {known names : List String}

@[simp] theorem isOk_ok (a : α) : (Except.ok a : Except DecodeError α).isOk = true := rfl

@[simp] theorem isOk_error (error : DecodeError) :
    (Except.error error : Except DecodeError α).isOk = false := rfl

theorem isOk_iff {r : Except DecodeError α} : r.isOk ↔ ∃ a, r = .ok a := by
  cases r <;> simp

theorem not_isOk_iff {r : Except DecodeError α} : ¬r.isOk ↔ ∃ error, r = .error error := by
  cases r <;> simp

@[simp] theorem isOk_map (f : α → β) (r : Except DecodeError α) : (r.map f).isOk = r.isOk := by
  cases r <;> rfl

theorem isOk_bind {r : Except DecodeError α} {f : α → Except DecodeError β} :
    (r >>= f).isOk ↔ ∃ a, r = .ok a ∧ (f a).isOk := by
  cases r <;> simp [bind, Except.bind]

@[simp] theorem isOk_seq (f : Except DecodeError (α → β)) (r : Except DecodeError α) :
    (f <*> r).isOk = (f.isOk && r.isOk) := by
  cases f <;> cases r <;> rfl

theorem isOk_mapM {f : α → Except DecodeError β} {items : List α} :
    (items.mapM f).isOk ↔ ∀ item ∈ items, (f item).isOk := by
  induction items with
  | nil => simp [pure, Except.pure]
  | cons item items ih =>
      rw [List.mapM_cons, isOk_bind, List.forall_mem_cons, ← ih, isOk_iff]
      constructor
      · rintro ⟨b, hb, hrest⟩
        obtain ⟨bs, hbs, -⟩ := isOk_bind.mp hrest
        exact ⟨⟨b, hb⟩, hbs ▸ rfl⟩
      · rintro ⟨⟨b, hb⟩, hrest⟩
        obtain ⟨bs, hbs⟩ := isOk_iff.mp hrest
        exact ⟨b, hb, isOk_bind.mpr ⟨bs, hbs, rfl⟩⟩

/-- What accepts no container is strict. -/
theorem strict_of_leaf {decode : Json → Except DecodeError α}
    (h : ∀ j, (decode j).isOk → j.isContainer = false) : Strict known decode := by
  intro name value path j j' _ hadds hok
  have hcontainer := hadds.isContainer_left
  rw [h j hok] at hcontainer
  cases hcontainer

theorem strict_decodeString : Strict known decodeString :=
  strict_of_leaf fun j => by cases j <;> simp [decodeString, Json.isContainer]

theorem strict_decodeBool : Strict known decodeBool :=
  strict_of_leaf fun j => by cases j <;> simp [decodeBool, Json.isContainer]

theorem strict_decodeUnsigned (bits : ℕ) (ofNat : ℕ → α) :
    Strict known (decodeUnsigned bits ofNat) :=
  strict_of_leaf fun j => by cases j <;> simp [decodeUnsigned, Json.isContainer]

theorem strict_decodeI64 : Strict known decodeI64 :=
  strict_of_leaf fun j => by cases j <;> simp [decodeI64, Json.isContainer]

theorem decodeOption_of_isContainer {decode : Json → Except DecodeError α} {j : Json}
    (h : j.isContainer) : decodeOption decode j = (decode j).map some := by
  cases j <;> first | rfl | cases h

theorem strict_decodeOption {decode : Json → Except DecodeError α} (h : Strict known decode) :
    Strict known (decodeOption decode) := by
  intro name value path j j' hname hadds hok
  rw [decodeOption_of_isContainer hadds.isContainer_left, isOk_map] at hok
  rw [decodeOption_of_isContainer hadds.isContainer_right, isOk_map]
  exact h hname hadds hok

theorem strict_decodeVec {decode : Json → Except DecodeError α} (h : Strict known decode) :
    Strict known (decodeVec decode) := by
  intro name value path j j' hname hadds hok
  cases j with
  | array items =>
      obtain ⟨front, back, rest, inner, inner', -, rfl, rfl, hinner⟩ := hadds.cases_array
      have haccepted := isOk_mapM.mp hok inner (by simp)
      intro hok'
      exact h hname hinner haccepted (isOk_mapM.mp hok' inner' (by simp))
  | _ => simp [decodeVec] at hok

/-- A unit with a field is none. -/
theorem isUnit_addsField {origin : Origin} {name : String} {value : Json}
    {path : List Json.Step} {j j' : Json} (hunit : isUnit origin j)
    (hadds : Json.AddsField name value path j j') : isUnit origin j' = false := by
  have hcontainer := hadds.isContainer_left
  cases j with
  | object entries =>
      cases entries with
      | nil =>
          obtain ⟨front, back, -, hnil, rfl⟩ |
            ⟨front, back, key, rest, inner, inner', -, hnil, -⟩ := hadds.cases_object
          · cases front <;> cases origin <;> rfl
          · simp at hnil
      | cons => cases origin <;> simp [isUnit] at hunit
  | array items => cases origin <;> simp [isUnit] at hunit
  | _ => simp [Json.isContainer] at hcontainer

theorem strict_decodeEnum (variants : List (String × α)) (origin : Origin) :
    Strict known (decodeEnum variants origin) := by
  intro name value path j j' _ hadds hok
  have hcontainer := hadds.isContainer_left
  cases j with
  | object entries =>
      obtain ⟨key, inner, rfl⟩ : ∃ key inner, entries = [(key, inner)] := by
        match entries, hok with
        | [(key, inner)], _ => exact ⟨key, inner, rfl⟩
      obtain ⟨front, back, -, hentries, rfl⟩ |
        ⟨front, back, other, rest, inner₁, inner₂, -, hentries, rfl, hinner⟩ := hadds.cases_object
      · have hlength := congrArg List.length hentries
        cases front with
        | nil => cases back <;> simp_all [decodeEnum]
        | cons first front => cases front <;> simp_all [decodeEnum]
      · obtain ⟨rfl, heq, rfl⟩ : front = [] ∧ (key, inner) = (other, inner₁) ∧ back = [] := by
          cases front <;> simp_all
        obtain ⟨rfl, rfl⟩ := Prod.mk.inj heq
        have hunit : isUnit origin inner := by
          by_contra hno
          simp [decodeEnum, hno] at hok
        simp [decodeEnum, isUnit_addsField hunit hinner]
  | array items => simp [decodeEnum] at hok
  | _ => simp [Json.isContainer] at hcontainer

end strict

/-! ## Structs -/

/-- A decoder that is strict, wherever the value comes from. -/
structure StrictDecoder (known : List String) (α : Type) where
  decode : Origin → Json → Except DecodeError α
  strict : ∀ origin, Strict known (decode origin)

namespace StrictDecoder

variable {α : Type} {known : List String}

def string : StrictDecoder known String := ⟨fun _ => decodeString, fun _ => strict_decodeString⟩

def bool : StrictDecoder known Bool := ⟨fun _ => decodeBool, fun _ => strict_decodeBool⟩

def unsigned (bits : ℕ) (ofNat : ℕ → α) : StrictDecoder known α :=
  ⟨fun _ => decodeUnsigned bits ofNat, fun _ => strict_decodeUnsigned bits ofNat⟩

def u8 : StrictDecoder known UInt8 := unsigned 8 .ofNat

def u16 : StrictDecoder known UInt16 := unsigned 16 .ofNat

def u32 : StrictDecoder known UInt32 := unsigned 32 .ofNat

def u64 : StrictDecoder known UInt64 := unsigned 64 .ofNat

def i64 : StrictDecoder known ℤ := ⟨fun _ => decodeI64, fun _ => strict_decodeI64⟩

def option (decoder : StrictDecoder known α) : StrictDecoder known (Option α) :=
  ⟨fun origin => decodeOption (decoder.decode origin),
    fun origin => strict_decodeOption (decoder.strict origin)⟩

def vec (decoder : StrictDecoder known α) : StrictDecoder known (List α) :=
  ⟨fun origin => decodeVec (decoder.decode origin),
    fun origin => strict_decodeVec (decoder.strict origin)⟩

def unitEnum (variants : List (String × α)) : StrictDecoder known α :=
  ⟨decodeEnum variants, strict_decodeEnum variants⟩

end StrictDecoder

/-- The fields of a struct: their names, in the order of the declaration, and how the struct is read
from their values. A value that has got an unknown field is not read. -/
structure Fields (known : List String) (α : Type) where
  names : List String
  read : Origin → (String → Option Json) → Except DecodeError α
  strict : ∀ ⦃origin : Origin⦄ ⦃found found' : String → Option Json⦄ ⦃key name : String⦄
    ⦃inner inner' value : Json⦄ ⦃path : List Json.Step⦄, name ∉ known → key ∈ names →
      found key = some inner → found' key = some inner' →
        Json.AddsField name value path inner inner' →
          (read origin found).isOk → ¬(read origin found').isOk

namespace Fields

variable {α β : Type} {known : List String}

/-- A field that is read from its value, or given by `absent` when there is none. -/
def single (name : String) (decoder : StrictDecoder known α)
    (absent : Except DecodeError α) : Fields known α where
  names := [name]
  read origin found :=
    match found name with
    | some value => decoder.decode origin value
    | none => absent
  strict := by
    intro origin found found' key other inner inner' value path hname hkey hfound hfound' hadds hok
    obtain rfl := List.mem_singleton.mp hkey
    simp only [hfound] at hok
    simp only [hfound']
    exact decoder.strict origin hname hadds hok

/-- A field that has to be there. -/
def required (name : String) (decoder : StrictDecoder known α) : Fields known α :=
  single name decoder (.error (.missingField name))

/-- An `Option`, which may be left out. -/
def optional (name : String) (decoder : StrictDecoder known α) : Fields known (Option α) :=
  single name decoder.option (.ok none)

/-- A field with `#[serde(default)]`. -/
def defaulted (name : String) (decoder : StrictDecoder known α) (fallback : α) :
    Fields known α :=
  single name decoder (.ok fallback)

instance : Applicative (Fields known) where
  pure a := ⟨[], fun _ _ => .ok a, fun _ _ _ _ _ _ _ _ _ _ hkey => nomatch hkey⟩
  seq f x :=
    { names := f.names ++ (x ()).names
      read := fun origin found => f.read origin found <*> (x ()).read origin found
      strict := by
        intro origin found found' key name inner inner' value path hname hkey hfound hfound' hadds
        simp only [isOk_seq, Bool.and_eq_true, not_and]
        rintro ⟨hf, hx⟩ hf'
        rcases List.mem_append.mp hkey with hkey | hkey
        · exact absurd hf' (f.strict hname hkey hfound hfound' hadds hf)
        · exact (x ()).strict hname hkey hfound hfound' hadds hx }

/-- Whatever is read meets the condition. -/
def Yields (fields : Fields known α) (P : α → Prop) : Prop :=
  ∀ origin found a, fields.read origin found = .ok a → P a

theorem yields_map {f : α → β} {fields : Fields known α} {P : β → Prop} (h : ∀ a, P (f a)) :
    (f <$> fields).Yields P := by
  intro origin found b hb
  cases hread : fields.read origin found with
  | error error =>
      have hfailed : (f <$> fields).read origin found = .error error :=
        congrArg (Except.ok f <*> ·) hread
      rw [hfailed] at hb
      cases hb
  | ok a =>
      have hmapped : (f <$> fields).read origin found = .ok (f a) :=
        congrArg (Except.ok f <*> ·) hread
      rw [hmapped] at hb
      cases hb
      exact h a

theorem yields_seq {f : Fields known (α → β)} {fields : Fields known α} {P : β → Prop}
    (h : f.Yields fun g => ∀ a, P (g a)) : (f <*> fields).Yields P := by
  intro origin found b hb
  have hseq : (f <*> fields).read origin found = f.read origin found <*> fields.read origin found :=
    rfl
  cases hf : f.read origin found with
  | error error =>
      rw [hseq, hf] at hb
      cases hb
  | ok g =>
      cases hread : fields.read origin found with
      | error error =>
          rw [hseq, hf, hread] at hb
          cases hb
      | ok a =>
          rw [hseq, hf, hread] at hb
          cases hb
          exact h origin found g hf a

end Fields

/-- The field that a step into a struct leads to; in an array the fields are in their order. -/
def fieldOf (names : List String) : Json.Step → Option String
  | .field key => some key
  | .item index => names[index]?

section entries

variable {known names : List String} {deny : Bool} {entries front back found : List (String × Json)}
  {key : String} {inner inner' : Json}

theorem lookup_of_nodup (h : ((front ++ (key, inner) :: back).map Prod.fst).Nodup) :
    (front ++ (key, inner) :: back).lookup key = some inner := by
  induction front with
  | nil => simp
  | cons entry front ih =>
      rw [List.cons_append, List.map_cons, List.nodup_cons] at h
      have hne : key ≠ entry.1 := fun heq => h.1 (by simp [← heq])
      rw [List.cons_append, List.lookup_cons, beq_eq_false_iff_ne.mpr hne]
      exact ih h.2

/-- The other fields keep their values. -/
theorem lookup_of_ne (inner inner' : Json) {other : String} (h : other ≠ key) :
    (front ++ (key, inner') :: back).lookup other =
      (front ++ (key, inner) :: back).lookup other := by
  simp [List.lookup_append, List.lookup_cons, beq_eq_false_iff_ne.mpr h]

theorem readField_of_lookup {α : Type} {decode : Json → Except DecodeError α}
    (h : found.lookup key = some inner) : readField found key decode = decode inner := by
  rw [readField, h]

theorem readField_congr {α : Type} {decode : Json → Except DecodeError α}
    {found' : List (String × Json)} (h : found'.lookup key = found.lookup key) :
    readField found' key decode = readField found key decode := by
  rw [readField, h, readField]

/-- A number that fits is read. -/
theorem decodeUnsigned_natCast {α : Type} {bits n : ℕ} (ofNat : ℕ → α) (h : n < 2 ^ bits) :
    decodeUnsigned bits ofNat (.int n) = .ok (ofNat n) := by
  have hlt : (n : ℤ) < 2 ^ bits := by exact_mod_cast h
  simp [decodeUnsigned, hlt]

theorem readField_string_eq_ok {text : String} :
    readField found key decodeString = .ok text ↔ found.lookup key = some (.string text) := by
  unfold readField
  rcases found.lookup key with _ | value
  · simp
  · cases value <;> simp [decodeString]

theorem nodup_zip (h : names.Nodup) (items : List Json) :
    ((names.zip items).map Prod.fst).Nodup := by
  rw [List.zip_eq_zip_take_min, List.map_fst_zip (by simp)]
  exact h.sublist (List.take_sublist _ _)

theorem knownEntries_eq_ok_iff : knownEntries names deny entries = .ok found ↔
    (deny → ∀ entry ∈ entries, entry.1 ∈ names) ∧ (found.map Prod.fst).Nodup ∧
      found = entries.filter (·.1 ∈ names) := by
  unfold knownEntries
  cases hunknown : entries.find? fun entry => deny && entry.1 ∉ names with
  | some entry =>
      have hmem := List.mem_of_find?_eq_some hunknown
      have hsome := List.find?_some hunknown
      simp only [Bool.and_eq_true, decide_eq_true_eq] at hsome
      simp only [reduceCtorEq, false_iff]
      exact fun h => hsome.2 (h.1 hsome.1 entry hmem)
  | none =>
      have hknown : deny → ∀ entry ∈ entries, entry.1 ∈ names := by
        intro hdeny entry hentry
        have hnot := List.find?_eq_none.mp hunknown entry hentry
        simpa [hdeny] using hnot
      dsimp only
      split_ifs with hnodup
      · rw [Except.ok.injEq, and_iff_right hknown]
        constructor
        · rintro rfl
          exact ⟨hnodup, rfl⟩
        · exact fun h => h.2.symm
      · simp only [false_iff]
        rintro ⟨-, h, rfl⟩
        exact hnodup h

/-- An unknown entry is ignored where it is not denied, -/
theorem knownEntries_unknown (h : key ∉ names) :
    knownEntries names false (front ++ (key, inner) :: back) =
      knownEntries names false (front ++ back) := by
  simp [knownEntries, h]

/-- and rejected where it is. -/
theorem knownEntries_denied (h : key ∉ names) :
    ¬(knownEntries names true (front ++ (key, inner) :: back)).isOk := by
  intro hok
  obtain ⟨found, hfound⟩ := isOk_iff.mp hok
  exact h ((knownEntries_eq_ok_iff.mp hfound).1 rfl (key, inner) (by simp))

/-- The value of a known field is what the field is read from. -/
theorem knownEntries_known (inner' : Json) (h : key ∈ names)
    (hfound : knownEntries names deny (front ++ (key, inner) :: back) = .ok found) :
    found.lookup key = some inner ∧
      ∃ found', knownEntries names deny (front ++ (key, inner') :: back) = .ok found' ∧
        found'.lookup key = some inner' ∧
        ∀ other, other ≠ key → found'.lookup other = found.lookup other := by
  obtain ⟨hknown, hnodup, rfl⟩ := knownEntries_eq_ok_iff.mp hfound
  have hsplit : ∀ value : Json, (front ++ (key, value) :: back).filter (·.1 ∈ names) =
      front.filter (·.1 ∈ names) ++ (key, value) :: back.filter (·.1 ∈ names) := by
    intro value
    rw [List.filter_append, List.filter_cons_of_pos (by simp [h])]
  rw [hsplit] at hnodup ⊢
  have hnodup' : ((front.filter (·.1 ∈ names) ++
      (key, inner') :: back.filter (·.1 ∈ names)).map Prod.fst).Nodup := by
    simpa only [List.map_append, List.map_cons] using hnodup
  refine ⟨lookup_of_nodup hnodup, _, knownEntries_eq_ok_iff.mpr ⟨?_, ?_, rfl⟩, ?_, ?_⟩
  · intro hdeny entry hentry
    rcases List.mem_append.mp hentry with hmem | hmem
    · exact hknown hdeny entry (List.mem_append_left _ hmem)
    · rcases List.mem_cons.mp hmem with rfl | hmem
      · exact h
      · exact hknown hdeny entry (List.mem_append_right _ (List.mem_cons_of_mem _ hmem))
  · rw [hsplit]
    exact hnodup'
  · rw [hsplit]
    exact lookup_of_nodup hnodup'
  · intro other hother
    rw [hsplit]
    exact lookup_of_ne inner inner' hother

/-- A struct that denies unknown fields: either the field is denied, or it goes into the value of
one of the struct's own fields. -/
theorem structEntries_addsField {name : String} {value j j' : Json} {path : List Json.Step}
    {count : ℕ} (hnodup : names.Nodup) (hname : name ∉ names)
    (hadds : Json.AddsField name value path j j')
    (hfound : structEntries names count true j = .ok found) :
    (path = [] ∧ ¬(structEntries names count true j').isOk) ∨
      ∃ step rest key inner inner' found', path = step :: rest ∧ fieldOf names step = some key ∧
        key ∈ names ∧ found.lookup key = some inner ∧
        structEntries names count true j' = .ok found' ∧ found'.lookup key = some inner' ∧
        (∀ other, other ≠ key → found'.lookup other = found.lookup other) ∧
        Json.AddsField name value rest inner inner' := by
  cases j with
  | object entries =>
      obtain ⟨front, back, hpath, rfl, rfl⟩ |
        ⟨front, back, key, rest, inner, inner', hpath, rfl, rfl, hinner⟩ := hadds.cases_object
      · exact .inl ⟨hpath, knownEntries_denied hname⟩
      · have hkey : key ∈ names :=
          (knownEntries_eq_ok_iff.mp hfound).1 rfl (key, inner) (by simp)
        obtain ⟨hlookup, found', hfound', hlookup', hothers⟩ :=
          knownEntries_known inner' hkey hfound
        exact .inr ⟨_, rest, key, inner, inner', found', hpath, rfl, hkey, hlookup, hfound',
          hlookup', hothers, hinner⟩
  | array items =>
      obtain ⟨front, back, rest, inner, inner', hpath, rfl, rfl, hinner⟩ := hadds.cases_array
      have hlength : count ≤ (front ++ inner :: back).length ∧
          (front ++ inner :: back).length ≤ names.length := by
        by_contra hno
        rw [structEntries, if_neg hno] at hfound
        cases hfound
      have hlength' : count ≤ (front ++ inner' :: back).length ∧
          (front ++ inner' :: back).length ≤ names.length := by simpa using hlength
      rw [structEntries, if_pos hlength] at hfound
      have hindex : front.length < names.length := by
        have hle := hlength.2
        rw [List.length_append, List.length_cons] at hle
        omega
      -- the names around the item
      have hnames : names = names.take front.length ++
          names[front.length] :: names.drop (front.length + 1) := by
        rw [List.getElem_cons_drop, List.take_append_drop]
      have htake : (names.take front.length).length = front.length := by
        rw [List.length_take]
        omega
      have hzip : ∀ item : Json, names.zip (front ++ item :: back) =
          (names.take front.length).zip front ++
            (names[front.length], item) :: (names.drop (front.length + 1)).zip back := by
        intro item
        conv_lhs => rw [hnames]
        rw [List.zip_append htake]
        rfl
      have hlookup : ∀ item : Json,
          (names.zip (front ++ item :: back)).lookup names[front.length] = some item := by
        intro item
        have hnodupItem := nodup_zip hnodup (front ++ item :: back)
        rw [hzip] at hnodupItem ⊢
        exact lookup_of_nodup hnodupItem
      rw [← Except.ok.inj hfound]
      refine .inr ⟨_, rest, names[front.length], inner, inner', _, hpath, ?_, ?_, hlookup inner, ?_,
        hlookup inner', ?_, hinner⟩
      · rw [fieldOf, List.getElem?_eq_getElem hindex]
      · exact List.getElem_mem hindex
      · rw [structEntries, if_pos hlength']
      · intro other hother
        rw [hzip, hzip]
        exact lookup_of_ne inner inner' hother
  | _ => cases hfound

end entries

/-- A struct with `#[serde(deny_unknown_fields)]`. -/
def StrictDecoder.denyUnknown {known : List String} {α : Type} (fields : Fields known α)
    (hnodup : fields.names.Nodup) (hknown : fields.names ⊆ known) : StrictDecoder known α where
  decode origin j := do
    let found ← structEntries fields.names fields.names.length true j
    fields.read origin fun key => found.lookup key
  strict := by
    intro origin name value path j j' hname hadds hok hok'
    obtain ⟨found, hfound, hread⟩ := isOk_bind.mp hok
    obtain ⟨found', hfound', hread'⟩ := isOk_bind.mp hok'
    obtain ⟨-, hdenied⟩ | ⟨-, rest, key, inner, inner', other, -, -, hkey, hlookup, hother, hlookup',
      -, hinner⟩ := structEntries_addsField hnodup (fun hmem => hname (hknown hmem)) hadds hfound
    · exact hdenied (hfound' ▸ rfl)
    · obtain rfl := Except.ok.inj (hother.symm.trans hfound')
      exact fields.strict hname hkey hlookup hlookup' hinner hread hread'

/-! ## Adjacently tagged enumerations -/

/-- What the content of a variant is: nothing, or a struct that ignores unknown fields. -/
inductive Variant (known : List String) (α : Type) where
  | unit (value : α)
  | struct (fields : Fields known α)

namespace Variant

variable {known : List String} {α : Type}

def names : Variant known α → List String
  | unit _ => []
  | struct fields => fields.names

/-- The content, which for a struct has to be an object. -/
def content (origin : Origin) : Variant known α → Json → Except DecodeError α
  | unit value, .null => .ok value
  | unit _, _ => .error .invalidType
  | struct fields, .object entries => do
      let found ← knownEntries fields.names false entries
      fields.read origin fun key => found.lookup key
  | struct _, _ => .error .invalidType

/-- Only a variant without data can do without content. -/
def missing (content : String) : Variant known α → Except DecodeError α
  | unit value => .ok value
  | struct _ => .error (.missingField content)

/-- Whatever the variant reads meets the condition. -/
def Yields (variant : Variant known α) (P : α → Prop) : Prop :=
  match variant with
  | unit value => P value
  | struct fields => fields.Yields P

/-- The value of the variant. -/
def read (content : String) (variant : Variant known α) :
    Option (Origin × Json) → Except DecodeError α
  | some (origin, value) => variant.content origin value
  | none => variant.missing content

end Variant

/-- The tag and the content, among the entries of that name. Content that stands before the tag was
buffered. -/
def taggedEntries (tag : String) :
    List (String × Json) → Except DecodeError (Json × Option (Origin × Json))
  | [] => .error (.missingField tag)
  | [(key, value)] => if key = tag then .ok (value, none) else .error (.missingField tag)
  | [(key₁, value₁), (key₂, value₂)] =>
      if key₁ = key₂ then .error .duplicateField
      else if key₁ = tag then .ok (value₁, some (.text, value₂))
      else .ok (value₂, some (.buffer, value₁))
  | _ => .error .duplicateField

/-- The tag of a value, and its content, if it has one. -/
def tagged (tag content : String) :
    Json → Except DecodeError (Json × Option (Origin × Json))
  | .object entries =>
      taggedEntries tag (entries.filter fun entry => entry.1 = tag || entry.1 = content)
  | .array [tagValue, value] => .ok (tagValue, some (.text, value))
  | .array items => .error (.invalidLength items.length)
  | _ => .error .invalidType

/-- An enumeration with `#[serde(tag = "…", content = "…")]`. -/
def adjacent {known : List String} {α : Type} (tag content : String)
    (variants : List (String × Variant known α)) (j : Json) : Except DecodeError α := do
  let (tagValue, value) ← tagged tag content j
  let variant ← decodeEnum variants .text tagValue
  variant.read content value

/-- Below the content of a variant: the struct itself, and what lies in a field it does not have. -/
def IgnoredInContent (names : List String) : List Json.Step → Prop
  | [] => True
  | step :: _ => ∃ key, step = .field key ∧ key ∉ names

/-- The levels of an adjacently tagged enumeration, of the variant whose struct has these fields,
at which a field is ignored. -/
def Ignored (tag content : String) (names : List String) : List Json.Step → Prop
  | [] => True
  | step :: rest =>
      (fieldOf [tag, content] step = some content ∧ IgnoredInContent names rest) ∨
        ∃ key, step = .field key ∧ key ≠ tag ∧ key ≠ content

section adjacent

variable {known names : List String} {α : Type} {tag content name : String}
  {value j j' tagValue : Json} {path : List Json.Step} {found : Option (Origin × Json)}

/-- The tag and the content are what is decoded. -/
theorem taggedEntries_addsField {front back : List (String × Json)} {key : String}
    {inner : Json} (inner' : Json) (hkey : key = tag ∨ key = content)
    (hfront : ∀ entry ∈ front, entry.1 = tag ∨ entry.1 = content)
    (hfound : taggedEntries tag (front ++ (key, inner) :: back) = .ok (tagValue, found)) :
    (key = tag ∧ tagValue = inner ∧
      taggedEntries tag (front ++ (key, inner') :: back) = .ok (inner', found)) ∨
    key = content ∧ ∃ origin, found = some (origin, inner) ∧
      taggedEntries tag (front ++ (key, inner') :: back) =
        .ok (tagValue, some (origin, inner')) := by
  match front, back with
  | [], [] =>
      simp only [List.nil_append, taggedEntries] at hfound ⊢
      split_ifs at hfound ⊢ with htag
      cases hfound
      exact .inl ⟨htag, rfl, rfl⟩
  | [], [(key₂, value₂)] =>
      simp only [List.nil_append, taggedEntries] at hfound ⊢
      split_ifs at hfound ⊢ with heq htag
      · cases hfound
        exact .inl ⟨htag, rfl, rfl⟩
      · cases hfound
        exact .inr ⟨hkey.resolve_left htag, .buffer, rfl, rfl⟩
  | [(key₁, value₁)], [] =>
      have hfirst := hfront (key₁, value₁) (by simp)
      simp only [List.cons_append, List.nil_append, taggedEntries] at hfound ⊢
      split_ifs at hfound ⊢ with heq htag
      · cases hfound
        exact .inr ⟨hkey.resolve_left fun h => heq (htag.trans h.symm), .text, rfl, rfl⟩
      · cases hfound
        exact .inl ⟨hkey.resolve_right fun h => heq ((hfirst.resolve_left htag).trans h.symm),
          rfl, rfl⟩
  | [], _ :: _ :: _ => simp [taggedEntries] at hfound
  | [_], _ :: _ => simp [taggedEntries] at hfound
  | _ :: _ :: front, back => cases front <;> simp [taggedEntries] at hfound

/-- A field goes past the tag and the content, into the tag, or into the content. -/
theorem tagged_addsField (htag : name ≠ tag) (hcontent : name ≠ content)
    (hadds : Json.AddsField name value path j j')
    (hfound : tagged tag content j = .ok (tagValue, found)) :
    ((path = [] ∨ ∃ key rest, path = .field key :: rest ∧ key ≠ tag ∧ key ≠ content) ∧
      tagged tag content j' = .ok (tagValue, found)) ∨
    (∃ step rest tagValue', path = step :: rest ∧ fieldOf [tag, content] step = some tag ∧
      tagged tag content j' = .ok (tagValue', found) ∧
      Json.AddsField name value rest tagValue tagValue') ∨
    ∃ step rest origin inner inner', path = step :: rest ∧
      fieldOf [tag, content] step = some content ∧ found = some (origin, inner) ∧
      tagged tag content j' = .ok (tagValue, some (origin, inner')) ∧
      Json.AddsField name value rest inner inner' := by
  cases j with
  | object entries =>
      obtain ⟨front, back, hpath, rfl, rfl⟩ |
        ⟨front, back, key, rest, inner, inner', hpath, rfl, rfl, hinner⟩ := hadds.cases_object
      · refine .inl ⟨.inl hpath, ?_⟩
        simpa [tagged, htag, hcontent] using hfound
      · by_cases hkey : key = tag ∨ key = content
        · have hsplit : ∀ value : Json,
              tagged tag content (.object (front ++ (key, value) :: back)) =
                taggedEntries tag
                  (front.filter (fun entry => entry.1 = tag || entry.1 = content) ++
                    (key, value) ::
                      back.filter fun entry => entry.1 = tag || entry.1 = content) := by
            intro value
            rw [tagged, List.filter_append, List.filter_cons_of_pos (by simpa using hkey)]
          rw [hsplit] at hfound ⊢
          obtain ⟨rfl, rfl, hfound'⟩ | ⟨rfl, origin, rfl, hfound'⟩ :=
            taggedEntries_addsField inner' hkey (fun entry hentry => by
              simpa using (List.mem_filter.mp hentry).2) hfound
          · exact .inr (.inl ⟨_, rest, inner', hpath, rfl, hfound', hinner⟩)
          · exact .inr (.inr ⟨_, rest, origin, inner, inner', hpath, rfl, rfl, hfound', hinner⟩)
        · obtain ⟨hkeyTag, hkeyContent⟩ := not_or.mp hkey
          refine .inl ⟨.inr ⟨key, rest, hpath, hkeyTag, hkeyContent⟩, ?_⟩
          simpa [tagged, hkeyTag, hkeyContent] using hfound
  | array items =>
      match items, hfound with
      | [first, second], hfound =>
          cases hfound
          obtain ⟨front, back, rest, inner, inner', hpath, hitems, rfl, hinner⟩ := hadds.cases_array
          match front, hitems with
          | [], hitems =>
              cases hitems
              exact .inr (.inl ⟨_, rest, inner', hpath, rfl, rfl, hinner⟩)
          | [_], hitems =>
              cases hitems
              exact .inr (.inr ⟨_, rest, .text, second, inner', hpath, rfl, rfl, rfl, hinner⟩)
          | _ :: _ :: front, hitems => simp at hitems
  | _ => cases hfound

theorem exists_mem_of_decodeEnum {variants : List (String × α)} {origin : Origin} {a : α}
    (h : decodeEnum variants origin j = .ok a) : ∃ name, (name, a) ∈ variants := by
  have hnamed : ∀ name, variantNamed variants name = .ok a → ∃ name, (name, a) ∈ variants := by
    intro name hname
    unfold variantNamed at hname
    cases hlookup : variants.lookup name with
    | none =>
        rw [hlookup] at hname
        cases hname
    | some variant =>
        rw [hlookup] at hname
        cases hname
        obtain ⟨front, back, rfl, -⟩ := List.lookup_eq_some_iff.mp hlookup
        exact ⟨name, by simp⟩
  match j, h with
  | .string name, h => exact hnamed name h
  | .object [(name, value)], h =>
      simp only [decodeEnum] at h
      split_ifs at h
      exact hnamed name h

/-- What is read from the content is what the variant yields. -/
theorem Variant.Yields.read {variant : Variant known α} {P : α → Prop} {a : α}
    (h : variant.Yields P) (hread : variant.read content found = .ok a) : P a := by
  match variant, found, hread with
  | .unit value, none, hread => exact Except.ok.inj hread ▸ h
  | .unit value, some (origin, .null), hread => exact Except.ok.inj hread ▸ h
  | .struct fields, some (origin, .object entries), hread =>
      cases hentries : knownEntries fields.names false entries with
      | error error =>
          simp [Variant.read, Variant.content, hentries, bind, Except.bind] at hread
      | ok kept =>
          simp only [Variant.read, Variant.content, hentries, bind, Except.bind] at hread
          exact h origin _ a hread

/-- The content of a variant is strict but for the level of its struct. -/
theorem Variant.content_addsField {variant : Variant known α} {origin : Origin} {a : α}
    (hname : name ∉ known) (hknown : variant.names ⊆ known)
    (hadds : Json.AddsField name value path j j') (hread : variant.content origin j = .ok a) :
    (IgnoredInContent variant.names path → variant.content origin j' = .ok a) ∧
      (¬IgnoredInContent variant.names path → ¬(variant.content origin j').isOk) := by
  match variant, j, hread with
  | .unit value, .null, hread => exact absurd hadds.isContainer_left Bool.false_ne_true
  | .struct fields, .object entries, hread =>
      obtain ⟨front, back, rfl, rfl, rfl⟩ |
        ⟨front, back, key, rest, inner, inner', rfl, rfl, rfl, hinner⟩ := hadds.cases_object
      · have hunknown : name ∉ fields.names := fun hmem => hname (hknown hmem)
        refine ⟨fun _ => ?_, fun hno => absurd trivial hno⟩
        simpa only [Variant.content, knownEntries_unknown hunknown] using hread
      · by_cases hkey : key ∈ fields.names
        · have hstrict : ¬IgnoredInContent fields.names (.field key :: rest) := by
            rintro ⟨other, hother, hnot⟩
            cases hother
            exact hnot hkey
          refine ⟨fun h => absurd h hstrict, fun _ hok => ?_⟩
          have haccepted := isOk_iff.mpr ⟨a, hread⟩
          obtain ⟨found, hfound, hfields⟩ := isOk_bind.mp haccepted
          obtain ⟨hlookup, found', hfound', hlookup', -⟩ :=
            knownEntries_known inner' hkey hfound
          rw [Variant.content, hfound'] at hok
          exact fields.strict hname hkey hlookup hlookup' hinner hfields hok
        · refine ⟨fun _ => ?_, fun hno => absurd ⟨key, rfl, hkey⟩ hno⟩
          simpa only [Variant.content, knownEntries_unknown hkey] using hread

/-- **An adjacently tagged enumeration ignores an unknown field exactly at its own level, at the
level of its content, and within what these ignore.** -/
theorem adjacent_addsField {variants : List (String × Variant known α)} {fieldsOf : α → List String}
    {a : α} (hne : tag ≠ content) (htag : tag ∈ known) (hcontent : content ∈ known)
    (hvariants : ∀ entry ∈ variants, entry.2.names ⊆ known ∧
      entry.2.Yields fun a => fieldsOf a = entry.2.names)
    (hname : name ∉ known) (hadds : Json.AddsField name value path j j')
    (hdecoded : adjacent tag content variants j = .ok a) :
    (Ignored tag content (fieldsOf a) path → adjacent tag content variants j' = .ok a) ∧
      (¬Ignored tag content (fieldsOf a) path → ¬(adjacent tag content variants j').isOk) := by
  obtain ⟨⟨tagValue, found⟩, hfound, hrest⟩ := isOk_bind.mp (isOk_iff.mpr ⟨a, hdecoded⟩)
  obtain ⟨variant, hvariant, -⟩ := isOk_bind.mp hrest
  have hread : variant.read content found = .ok a := by
    rw [adjacent, hfound] at hdecoded
    simpa only [bind, Except.bind, hvariant] using hdecoded
  obtain ⟨variantName, hmem⟩ := exists_mem_of_decodeEnum hvariant
  obtain ⟨hknown, hyields⟩ := hvariants _ hmem
  rw [hyields.read hread]
  have hcontentTag : ∀ {step : Json.Step}, fieldOf [tag, content] step = some content →
      ∀ key, step = .field key → key = content := by
    rintro step hstep key rfl
    exact Option.some.inj hstep
  obtain ⟨hpath, hfound'⟩ | ⟨step, rest, tagValue', rfl, hstep, hfound', hinner⟩ |
    ⟨step, rest, origin, inner, inner', rfl, hstep, rfl, hfound', hinner⟩ :=
    tagged_addsField (fun h : name = tag => hname (h ▸ htag))
      (fun h : name = content => hname (h ▸ hcontent)) hadds hfound
  · have hignored : Ignored tag content variant.names path := by
      rcases hpath with rfl | ⟨key, rest, rfl, hkey⟩
      · trivial
      · exact .inr ⟨key, rfl, hkey⟩
    refine ⟨fun _ => ?_, fun hno => absurd hignored hno⟩
    rw [adjacent, hfound']
    simpa only [bind, Except.bind, hvariant] using hread
  · have hstrict : ¬Ignored tag content variant.names (step :: rest) := by
      rintro (⟨hcontentStep, -⟩ | ⟨key, rfl, hkey, -⟩)
      · exact hne (Option.some.inj (hstep.symm.trans hcontentStep))
      · exact hkey (Option.some.inj hstep)
    refine ⟨fun h => absurd h hstrict, fun _ hok => ?_⟩
    rw [adjacent, hfound'] at hok
    obtain ⟨_, hpair, hok⟩ := isOk_bind.mp hok
    cases hpair
    obtain ⟨other, hother, -⟩ := isOk_bind.mp hok
    exact strict_decodeEnum variants .text hname hinner (hvariant ▸ rfl) (hother ▸ rfl)
  · have hiff : Ignored tag content variant.names (step :: rest) ↔
        IgnoredInContent variant.names rest := by
      constructor
      · rintro (⟨-, h⟩ | ⟨key, rfl, -, hkey⟩)
        · exact h
        · exact absurd (hcontentTag hstep key rfl) hkey
      · exact fun h => .inl ⟨hstep, h⟩
    obtain ⟨hsame, hrejects⟩ := variant.content_addsField hname hknown hinner hread
    rw [hiff, adjacent, hfound']
    simp only [bind, Except.bind, hvariant]
    exact ⟨hsame, hrejects⟩

end adjacent

end OpenGuard.Lib
