import OpenGuard.Lib.JsonValue

/-!
# JSON texts say what they are the text of

Every value delimits itself in a compact text: no string, key or number can be read as a separator,
or goes on into what follows. Floating-point numbers are left out, since any text may stand for one.

* `unescape_escape`, `eq_of_toString`: strings and integers delimit themselves.
* `eq_of_chars`: so do values, by their structure.
* `render_injective`: two values with one compact text are one value.
-/

namespace OpenGuard.Lib

namespace Json

mutual

/-- The value has no floating-point number in it. -/
def NoFloat : Json → Prop
  | float _ => False
  | array items => NoFloatItems items
  | object entries => NoFloatEntries entries
  | null => True
  | bool _ => True
  | int _ => True
  | string _ => True

def NoFloatItems : List Json → Prop
  | [] => True
  | item :: rest => NoFloat item ∧ NoFloatItems rest

def NoFloatEntries : List (String × Json) → Prop
  | [] => True
  | (_, value) :: rest => NoFloat value ∧ NoFloatEntries rest

end

/-! ## Strings and numbers delimit themselves -/

/-- What may follow a value. -/
def Ends (rest : List Char) : Prop := ∀ c ∈ rest.head?, c = ',' ∨ c = ']' ∨ c = '\x7d'

/-- The value of a hexadecimal digit. -/
def hexValue (c : Char) : ℕ := (toDigit 16 c).getD 0

/-- The character that the first ones of a text stand for, and the others. -/
def unescape : List Char → Option (Char × List Char)
  | '\\' :: 'u' :: '0' :: '0' :: high :: low :: rest =>
      some (Char.ofNat (hexValue high * 16 + hexValue low), rest)
  | '\\' :: 'b' :: rest => some ('\x08', rest)
  | '\\' :: 't' :: rest => some ('\t', rest)
  | '\\' :: 'n' :: rest => some ('\n', rest)
  | '\\' :: 'f' :: rest => some ('\x0c', rest)
  | '\\' :: 'r' :: rest => some ('\r', rest)
  | '\\' :: c :: rest => some (c, rest)
  | c :: rest => some (c, rest)
  | [] => none

section strings

variable {c : Char} {rest rest' : List Char}

theorem unescape_cons (h : c ≠ '\\') (rest : List Char) :
    unescape (c :: rest) = some (c, rest) := by
  unfold unescape
  split <;> simp_all

/-- A control character is read from its number. -/
theorem ofNat_hexValue (h : c.toNat < 32) :
    Char.ofNat (hexValue (Nat.digitChar (c.toNat / 16)) * 16 +
      hexValue (Nat.digitChar (c.toNat % 16))) = c := by
  have hdigits : ∀ n < 32, hexValue (Nat.digitChar (n / 16)) * 16 +
      hexValue (Nat.digitChar (n % 16)) = n := by
    decide
  rw [hdigits _ h, Char.ofNat_toNat]

theorem unescape_escape (c : Char) (rest : List Char) :
    unescape (escape c ++ rest) = some (c, rest) := by
  unfold escape
  split_ifs with hquote hbackslash hb ht hn hf hr hcontrol
  · rw [hquote]
    rfl
  · rw [hbackslash]
    rfl
  · rw [hb]
    rfl
  · rw [ht]
    rfl
  · rw [hn]
    rfl
  · rw [hf]
    rfl
  · rw [hr]
    rfl
  · exact congrArg (fun d => some (d, rest)) (ofNat_hexValue hcontrol)
  · exact unescape_cons hbackslash rest

theorem escape_append_ne (c : Char) : escape c ++ rest ≠ '"' :: rest' := by
  intro h
  have hread := unescape_escape c rest
  rw [h, unescape_cons (by decide)] at hread
  obtain ⟨rfl, -⟩ := Prod.mk.inj (Option.some.inj hread)
  cases h

/-- The closing quotation mark is the first one that is not escaped. -/
theorem eq_of_flatMap_escape {chars chars' : List Char}
    (h : chars.flatMap escape ++ '"' :: rest = chars'.flatMap escape ++ '"' :: rest') :
    chars = chars' ∧ rest = rest' := by
  induction chars generalizing chars' with
  | nil =>
      cases chars' with
      | nil => exact ⟨rfl, (List.cons.inj h).2⟩
      | cons c chars' =>
          rw [List.flatMap_cons, List.append_assoc] at h
          exact absurd h.symm (escape_append_ne c)
  | cons c chars ih =>
      cases chars' with
      | nil =>
          rw [List.flatMap_cons, List.append_assoc] at h
          exact absurd h (escape_append_ne c)
      | cons c' chars' =>
          rw [List.flatMap_cons, List.flatMap_cons, List.append_assoc, List.append_assoc] at h
          have hread := congrArg unescape h
          rw [unescape_escape, unescape_escape] at hread
          obtain ⟨rfl, hrest⟩ := Prod.mk.inj (Option.some.inj hread)
          exact (ih hrest).imp_left (congrArg (c :: ·))

theorem toList_quoted (s : String) :
    (quoted s).toList = '"' :: (s.toList.flatMap escape ++ ['"']) := by
  simp [quoted]

theorem eq_of_quoted {s s' : String}
    (h : (quoted s).toList ++ rest = (quoted s').toList ++ rest') : s = s' ∧ rest = rest' := by
  rw [toList_quoted, toList_quoted] at h
  simp only [List.cons_append, List.append_assoc, List.nil_append, List.cons.injEq, true_and] at h
  exact (eq_of_flatMap_escape h).imp_left String.toList_inj.mp

end strings

section numbers

variable {digits digits' rest rest' : List Char} {n n' : ℤ}

/-- Digits go as far as they go. -/
theorem eq_of_digits (hdigits : ∀ c ∈ digits, c.isDigit) (hdigits' : ∀ c ∈ digits', c.isDigit)
    (hrest : Ends rest) (hrest' : Ends rest') (h : digits ++ rest = digits' ++ rest') :
    digits = digits' ∧ rest = rest' := by
  have hstop : ∀ {rest : List Char}, Ends rest → rest.takeWhile Char.isDigit = [] := by
    intro rest hends
    cases rest with
    | nil => rfl
    | cons c rest =>
        refine List.takeWhile_cons_of_neg ?_
        rcases hends c rfl with rfl | rfl | rfl <;> decide
  have htake := congrArg (List.takeWhile Char.isDigit) h
  rw [List.takeWhile_append_of_pos hdigits, List.takeWhile_append_of_pos hdigits', hstop hrest,
    hstop hrest', List.append_nil, List.append_nil] at htake
  rw [htake] at h
  exact ⟨htake, List.append_cancel_left h⟩

theorem toList_toString (n : ℤ) :
    (toString n).toList =
      if 0 ≤ n then Nat.toDigits 10 n.toNat else '-' :: Nat.toDigits 10 (-n).toNat := by
  rw [Int.toString_eq_repr, Int.repr_eq_if]
  split_ifs
  · exact Nat.toList_repr
  · rw [String.toList_append, Nat.toList_repr]
    rfl

theorem eq_of_toString (hrest : Ends rest) (hrest' : Ends rest')
    (h : (toString n).toList ++ rest = (toString n').toList ++ rest') :
    n = n' ∧ rest = rest' := by
  have hdigit : ∀ m, ∀ c ∈ Nat.toDigits 10 m, c.isDigit := fun m c hc =>
    Nat.isDigit_of_mem_toDigits (by decide) (by decide) hc
  have hminus : ∀ {m : ℕ} {tail tail' : List Char},
      Nat.toDigits 10 m ++ tail ≠ '-' :: tail' := by
    intro m tail tail' heq
    cases hchars : Nat.toDigits 10 m with
    | nil => exact Nat.toDigits_ne_nil hchars
    | cons c chars =>
        rw [hchars] at heq
        obtain ⟨rfl, -⟩ := List.cons.inj heq
        exact absurd (hdigit m '-' (by simp [hchars])) (by decide)
  have hvalue : ∀ {m m' : ℕ}, Nat.toDigits 10 m = Nat.toDigits 10 m' → m = m' := by
    intro m m' heq
    rw [← Nat.ofDigitChars_ten_toDigits (n := m), heq, Nat.ofDigitChars_ten_toDigits]
  rw [toList_toString, toList_toString] at h
  split_ifs at h with hn hn' hn'
  · obtain ⟨heq, hrests⟩ := eq_of_digits (hdigit _) (hdigit _) hrest hrest' h
    exact ⟨by have := hvalue heq; omega, hrests⟩
  · exact absurd h hminus
  · exact absurd h.symm hminus
  · obtain ⟨heq, hrests⟩ :=
      eq_of_digits (hdigit _) (hdigit _) hrest hrest' (List.cons.inj h).2
    exact ⟨by have := hvalue heq; omega, hrests⟩

end numbers

/-! ## Values delimit themselves -/

/-- The kinds of values. -/
inductive Kind where
  | null
  | bool
  | number
  | string
  | array
  | object
  deriving DecidableEq

/-- The kind of a value. -/
def kind : Json → Kind
  | null => .null
  | bool _ => .bool
  | int _ => .number
  | float _ => .number
  | string _ => .string
  | array _ => .array
  | object _ => .object

/-- The kind of the values whose text starts with a character. -/
def kindOf (c : Char) : Option Kind :=
  if c = 'n' then some .null
  else if c = 't' ∨ c = 'f' then some .bool
  else if c = '"' then some .string
  else if c = '[' then some .array
  else if c = '\x7b' then some .object
  else if c = '-' ∨ c.isDigit then some .number
  else none

/-- The characters of a text of a value. -/
def chars (j : Json) : List Char := (render j).toList

/-- The items that follow the first one. -/
def laterItems (items : List Json) : List Char := items.flatMap fun item => ',' :: chars item

/-- An entry of an object. -/
def entryChars (entry : String × Json) : List Char :=
  (quoted entry.1).toList ++ ':' :: chars entry.2

/-- The entries that follow the first one. -/
def laterEntries (entries : List (String × Json)) : List Char :=
  entries.flatMap fun entry => ',' :: entryChars entry

section values

variable {j j' : Json} {rest rest' : List Char}

theorem toList_joinWith_comma (text : String) (texts : List String) :
    (joinWith "," (text :: texts)).toList =
      text.toList ++ texts.flatMap fun later => ',' :: later.toList :=
  toList_joinWith "," text texts

theorem chars_array_nil : chars (array []) = ['[', ']'] := by decide

theorem chars_array_cons (item : Json) (items : List Json) :
    chars (array (item :: items)) = '[' :: (chars item ++ (laterItems items ++ [']'])) := by
  rw [chars, render, renderItems_eq_map, List.map_cons, String.toList_append,
    String.toList_append, toList_joinWith_comma, List.flatMap_map]
  simp [laterItems, chars]

theorem chars_object_nil : chars (object []) = ['\x7b', '\x7d'] := by decide

theorem chars_object_cons (entry : String × Json) (entries : List (String × Json)) :
    chars (object (entry :: entries)) =
      '\x7b' :: (entryChars entry ++ (laterEntries entries ++ ['\x7d'])) := by
  have hentries : ∀ entries : List (String × Json), renderEntries entries =
      entries.map fun entry => quoted entry.1 ++ ":" ++ render entry.2 := by
    intro entries
    induction entries with
    | nil => rfl
    | cons entry entries ih => rw [renderEntries, ih, List.map_cons]
  rw [chars, render, hentries, List.map_cons, String.toList_append, String.toList_append,
    toList_joinWith_comma, List.flatMap_map]
  simp [laterEntries, entryChars, chars]

/-- The first character of a text says what it is. -/
theorem exists_chars_eq_cons (h : NoFloat j) :
    ∃ c tail, chars j = c :: tail ∧ kindOf c = some (kind j) := by
  cases j with
  | null => exact ⟨'n', ['u', 'l', 'l'], by decide, rfl⟩
  | bool value =>
      cases value with
      | true => exact ⟨'t', ['r', 'u', 'e'], by decide, rfl⟩
      | false => exact ⟨'f', ['a', 'l', 's', 'e'], by decide, rfl⟩
  | int n =>
      have hdigit : ∀ c : Char, c.isDigit → kindOf c = some .number := by
        intro c hc
        have hne : ∀ d : Char, ¬d.isDigit → c ≠ d := fun d hd heq => hd (heq ▸ hc)
        simp [kindOf, hc, hne]
      rw [chars, render, toList_toString]
      split_ifs with hn
      · cases hdigits : Nat.toDigits 10 n.toNat with
        | nil => exact absurd hdigits Nat.toDigits_ne_nil
        | cons c tail =>
            have hmem : c ∈ Nat.toDigits 10 n.toNat := by simp [hdigits]
            exact ⟨c, tail, rfl,
              hdigit c (Nat.isDigit_of_mem_toDigits (by decide) (by decide) hmem)⟩
      · exact ⟨'-', _, rfl, rfl⟩
  | float text => exact h.elim
  | string value => exact ⟨'"', _, toList_quoted value, rfl⟩
  | array items =>
      cases items with
      | nil => exact ⟨'[', _, chars_array_nil, rfl⟩
      | cons item items => exact ⟨'[', _, chars_array_cons item items, rfl⟩
  | object entries =>
      cases entries with
      | nil => exact ⟨'\x7b', _, chars_object_nil, rfl⟩
      | cons entry entries => exact ⟨'\x7b', _, chars_object_cons entry entries, rfl⟩

/-- Values with the same text have the same kind. -/
theorem kind_eq_of_chars (hj : NoFloat j) (hj' : NoFloat j')
    (h : chars j ++ rest = chars j' ++ rest') : kind j = kind j' := by
  obtain ⟨c, tail, hchars, hkind⟩ := exists_chars_eq_cons hj
  obtain ⟨c', tail', hchars', hkind'⟩ := exists_chars_eq_cons hj'
  rw [hchars, hchars'] at h
  obtain ⟨rfl, -⟩ := List.cons.inj h
  exact Option.some.inj (hkind.symm.trans hkind')

/-- No value starts with what ends one. -/
theorem chars_append_ne {c : Char} (hj : NoFloat j) (hc : kindOf c = none) :
    chars j ++ rest ≠ c :: rest' := by
  obtain ⟨first, tail, hchars, hkind⟩ := exists_chars_eq_cons hj
  intro h
  rw [hchars] at h
  obtain ⟨rfl, -⟩ := List.cons.inj h
  rw [hc] at hkind
  cases hkind

theorem ends_laterItems (items : List Json) (rest : List Char) :
    Ends (laterItems items ++ ']' :: rest) := by
  cases items with
  | nil => exact fun c hc => .inr (.inl (Option.some.inj hc).symm)
  | cons item items => exact fun c hc => .inl (Option.some.inj hc).symm

theorem ends_laterEntries (entries : List (String × Json)) (rest : List Char) :
    Ends (laterEntries entries ++ '\x7d' :: rest) := by
  cases entries with
  | nil => exact fun c hc => .inr (.inr (Option.some.inj hc).symm)
  | cons entry entries => exact fun c hc => .inl (Option.some.inj hc).symm

end values

mutual

/-- No text of a value is continued to that of another one. -/
theorem eq_of_chars {rest rest' : List Char} (hrest : Ends rest) (hrest' : Ends rest') :
    ∀ j j' : Json, NoFloat j → NoFloat j' → chars j ++ rest = chars j' ++ rest' →
      j = j' ∧ rest = rest'
  | null, j', hj, hj', h => by
      have hkind := kind_eq_of_chars hj hj' h
      cases j' with
      | null => exact ⟨rfl, List.append_cancel_left h⟩
      | _ => cases hkind
  | bool value, j', hj, hj', h => by
      have hkind := kind_eq_of_chars hj hj' h
      have htrue : chars (bool true) = ['t', 'r', 'u', 'e'] := by decide
      have hfalse : chars (bool false) = ['f', 'a', 'l', 's', 'e'] := by decide
      cases j' with
      | bool value' => cases value <;> cases value' <;> simp_all
      | _ => cases hkind
  | int n, j', hj, hj', h => by
      have hkind := kind_eq_of_chars hj hj' h
      cases j' with
      | int n' => exact (eq_of_toString hrest hrest' h).imp_left (congrArg int)
      | float text => exact hj'.elim
      | _ => cases hkind
  | float text, j', hj, hj', h => hj.elim
  | string value, j', hj, hj', h => by
      have hkind := kind_eq_of_chars hj hj' h
      cases j' with
      | string value' => exact (eq_of_quoted h).imp_left (congrArg string)
      | _ => cases hkind
  | array [], j', hj, hj', h => by
      have hkind := kind_eq_of_chars hj hj' h
      cases j' with
      | array items' =>
          cases items' with
          | nil => exact ⟨rfl, List.append_cancel_left h⟩
          | cons item' items' =>
              rw [chars_array_nil, chars_array_cons] at h
              simp only [List.cons_append, List.append_assoc, List.nil_append, List.cons.injEq,
                true_and] at h
              exact absurd h.symm (chars_append_ne hj'.1 rfl)
      | _ => cases hkind
  | array (item :: items), j', hj, hj', h => by
      have hkind := kind_eq_of_chars hj hj' h
      cases j' with
      | array items' =>
          cases items' with
          | nil =>
              rw [chars_array_nil, chars_array_cons] at h
              simp only [List.cons_append, List.append_assoc, List.nil_append, List.cons.injEq,
                true_and] at h
              exact absurd h (chars_append_ne hj.1 rfl)
          | cons item' items' =>
              rw [chars_array_cons, chars_array_cons] at h
              simp only [List.cons_append, List.append_assoc, List.nil_append, List.cons.injEq,
                true_and] at h
              obtain ⟨rfl, hlater⟩ := eq_of_chars (ends_laterItems items rest)
                (ends_laterItems items' rest') item item' hj.1 hj'.1 h
              obtain ⟨rfl, hrests⟩ := eq_of_laterItems items items' hj.2 hj'.2 hlater
              exact ⟨rfl, hrests⟩
      | _ => cases hkind
  | object [], j', hj, hj', h => by
      have hkind := kind_eq_of_chars hj hj' h
      cases j' with
      | object entries' =>
          cases entries' with
          | nil => exact ⟨rfl, List.append_cancel_left h⟩
          | cons entry' entries' =>
              rw [chars_object_nil, chars_object_cons, entryChars, toList_quoted] at h
              simp at h
      | _ => cases hkind
  | object ((name, value) :: entries), j', hj, hj', h => by
      have hkind := kind_eq_of_chars hj hj' h
      cases j' with
      | object entries' =>
          cases entries' with
          | nil =>
              rw [chars_object_nil, chars_object_cons, entryChars, toList_quoted] at h
              simp at h
          | cons entry' entries' =>
              obtain ⟨name', value'⟩ := entry'
              rw [chars_object_cons, chars_object_cons, entryChars, entryChars] at h
              simp only [List.cons_append, List.append_assoc, List.nil_append, List.cons.injEq,
                true_and] at h
              obtain ⟨rfl, hvalue⟩ := eq_of_quoted h
              obtain ⟨rfl, hlater⟩ := eq_of_chars (ends_laterEntries entries rest)
                (ends_laterEntries entries' rest') value value' hj.1 hj'.1 (List.cons.inj hvalue).2
              obtain ⟨rfl, hrests⟩ := eq_of_laterEntries entries entries' hj.2 hj'.2 hlater
              exact ⟨rfl, hrests⟩
      | _ => cases hkind

theorem eq_of_laterItems {rest rest' : List Char} :
    ∀ items items' : List Json, NoFloatItems items → NoFloatItems items' →
      laterItems items ++ ']' :: rest = laterItems items' ++ ']' :: rest' →
      items = items' ∧ rest = rest'
  | [], items', _, _, h => by
      cases items' with
      | nil => exact ⟨rfl, (List.cons.inj h).2⟩
      | cons item' items' => exact absurd (List.cons.inj h).1 (by decide)
  | item :: items, items', hitems, hitems', h => by
      cases items' with
      | nil => exact absurd (List.cons.inj h).1 (by decide)
      | cons item' items' =>
          simp only [laterItems, List.flatMap_cons, List.cons_append, List.append_assoc,
            List.cons.injEq, true_and] at h
          obtain ⟨rfl, hlater⟩ := eq_of_chars (ends_laterItems items rest)
            (ends_laterItems items' rest') item item' hitems.1 hitems'.1 h
          obtain ⟨rfl, hrests⟩ := eq_of_laterItems items items' hitems.2 hitems'.2 hlater
          exact ⟨rfl, hrests⟩

theorem eq_of_laterEntries {rest rest' : List Char} :
    ∀ entries entries' : List (String × Json), NoFloatEntries entries → NoFloatEntries entries' →
      laterEntries entries ++ '\x7d' :: rest = laterEntries entries' ++ '\x7d' :: rest' →
      entries = entries' ∧ rest = rest'
  | [], entries', _, _, h => by
      cases entries' with
      | nil => exact ⟨rfl, (List.cons.inj h).2⟩
      | cons entry' entries' => exact absurd (List.cons.inj h).1 (by decide)
  | (name, value) :: entries, entries', hentries, hentries', h => by
      cases entries' with
      | nil => exact absurd (List.cons.inj h).1 (by decide)
      | cons entry' entries' =>
          obtain ⟨name', value'⟩ := entry'
          simp only [laterEntries, entryChars, List.flatMap_cons, List.cons_append,
            List.append_assoc, List.cons.injEq, true_and] at h
          obtain ⟨rfl, hvalue⟩ := eq_of_quoted h
          obtain ⟨rfl, hlater⟩ := eq_of_chars (ends_laterEntries entries rest)
            (ends_laterEntries entries' rest') value value' hentries.1 hentries'.1
            (List.cons.inj hvalue).2
          obtain ⟨rfl, hrests⟩ := eq_of_laterEntries entries entries' hentries.2 hentries'.2 hlater
          exact ⟨rfl, hrests⟩

end

/-- **A compact text is that of one value only.** -/
theorem render_injective {j j' : Json} (hj : NoFloat j) (hj' : NoFloat j')
    (h : render j = render j') : j = j' := by
  have hchars : chars j ++ [] = chars j' ++ [] := by rw [chars, chars, h]
  have hends : Ends [] := fun c hc => absurd hc (Option.not_mem_none c)
  exact (eq_of_chars hends hends j j' hj hj' hchars).1

end Json

end OpenGuard.Lib
