import OpenGuard.Lib.JsonTokens

/-!
# Flat objects

An object whose fields are texts and numbers, in its compact text.

* `IsFlat`: the fields of such an object, `ReadsFlat`: what is relied on of a parser of JSON.
* `parseFlat`: a parser of flat objects; `readsFlat_parseFlat`: it reads them back.
-/

namespace OpenGuard.Lib

namespace Json

/-- A text, or a number of 64 bits. -/
def IsFlatValue (value : Json) : Prop :=
  (∃ text, value = .string text) ∨ ∃ n : ℕ, n < 2 ^ 64 ∧ value = .int n

/-- Fields with different names, each a text or a number. -/
def IsFlat (entries : List (String × Json)) : Prop :=
  (entries.map Prod.fst).Nodup ∧ ∀ entry ∈ entries, IsFlatValue entry.2

/-- A parser gives the fields of a flat object back. -/
def ReadsFlat (fromStr : String → Option Json) : Prop :=
  ∀ entries, IsFlat entries → ∃ value, fromStr (render (.object entries)) = some value ∧
    ∀ name, value.get name = entries.lookup name

/-! ## A parser -/

/-- The characters up to the closing quotation mark, and what follows it. -/
def readString : ℕ → List Char → Option (List Char × List Char)
  | 0, _ => none
  | fuel + 1, text =>
      if text.head? = some '"' then some ([], text.tail)
      else do
        let (c, rest) ← unescape text
        let (read, rest) ← readString fuel rest
        return (c :: read, rest)

/-- A text or a number, and what follows it. -/
def readValue (fuel : ℕ) (text : List Char) : Option (Json × List Char) :=
  if text.head? = some '"' then
    (readString fuel text.tail).map fun read => (.string (String.ofList read.1), read.2)
  else
    let digits := text.takeWhile Char.isDigit
    if digits = [] then none
    else some (.int (Nat.ofDigitChars 10 digits 0), text.dropWhile Char.isDigit)

/-- A field, and what follows it. -/
def readEntry (fuel : ℕ) (text : List Char) : Option ((String × Json) × List Char) := do
  let (name, rest) ← readString fuel (← if text.head? = some '"' then some text.tail else none)
  let (value, rest) ← readValue fuel (← if rest.head? = some ':' then some rest.tail else none)
  return ((String.ofList name, value), rest)

/-- The fields up to the end of the object. -/
def readEntries (fuel : ℕ) : ℕ → List Char → Option (List (String × Json))
  | 0, _ => none
  | count + 1, text => do
      let (entry, rest) ← readEntry fuel text
      if rest = ['\x7d'] then return [entry]
      else if rest.head? = some ',' then return entry :: (← readEntries fuel count rest.tail)
      else none

/-- A flat object. -/
def parseFlat (text : String) : Option Json :=
  if text.toList = ['\x7b', '\x7d'] then some (.object [])
  else if text.toList.head? = some '\x7b' then
    (readEntries text.toList.length text.toList.length text.toList.tail).map .object
  else none

/-! ## What it reads -/

section read

variable {fuel count n : ℕ} {read rest : List Char} {entry : String × Json}
  {entries : List (String × Json)}

/-- A string is read up to its end. -/
theorem readString_escape (h : read.length < fuel) :
    readString fuel (read.flatMap escape ++ '"' :: rest) = some (read, rest) := by
  induction read generalizing fuel with
  | nil =>
      cases fuel with
      | zero => cases h
      | succ fuel => rfl
  | cons c read ih =>
      cases fuel with
      | zero => cases h
      | succ fuel =>
          have hopen : ((c :: read).flatMap escape ++ '"' :: rest).head? ≠ some '"' := by
            intro hhead
            obtain ⟨tail, htail⟩ := List.head?_eq_some_iff.mp hhead
            rw [List.flatMap_cons, List.append_assoc] at htail
            exact escape_append_ne c htail
          rw [readString, if_neg hopen, List.flatMap_cons, List.append_assoc, unescape_escape]
          simp only [Option.bind_eq_bind, Option.bind_some, ih (Nat.lt_of_succ_lt_succ h)]
          rfl

/-- A quoted text is read up to its end. -/
theorem readString_quoted {text : String} (h : text.toList.length < fuel) :
    ((quoted text).toList ++ rest).head? = some '"' ∧
      readString fuel ((quoted text).toList ++ rest).tail = some (text.toList, rest) := by
  rw [toList_quoted]
  refine ⟨rfl, ?_⟩
  rw [List.cons_append, List.tail_cons, List.append_assoc]
  exact readString_escape h

/-- A number is read up to its last digit. -/
theorem readValue_int (hrest : Ends rest) :
    readValue fuel (chars (.int n) ++ rest) = some (.int n, rest) := by
  have hdigit : ∀ c ∈ Nat.toDigits 10 n, c.isDigit := fun c hc =>
    Nat.isDigit_of_mem_toDigits (by decide) (by decide) hc
  have hchars : chars (.int n) = Nat.toDigits 10 n := by
    rw [chars, render, toList_toString, if_pos (Int.natCast_nonneg n), Int.toNat_natCast]
  have hstop : rest.takeWhile Char.isDigit = [] ∧ rest.dropWhile Char.isDigit = rest := by
    cases rest with
    | nil => exact ⟨rfl, rfl⟩
    | cons c rest =>
        have hc : ¬c.isDigit := by rcases hrest c rfl with rfl | rfl | rfl <;> decide
        exact ⟨List.takeWhile_cons_of_neg hc, List.dropWhile_cons_of_neg hc⟩
  have hopen : (Nat.toDigits 10 n ++ rest).head? ≠ some '"' := by
    cases hdigits : Nat.toDigits 10 n with
    | nil => exact absurd hdigits Nat.toDigits_ne_nil
    | cons c digits =>
        intro hhead
        have hc := hdigit c (by simp [hdigits])
        rw [Option.some.inj hhead] at hc
        exact absurd hc (by decide)
  rw [readValue, hchars, if_neg hopen, List.takeWhile_append_of_pos hdigit,
    List.dropWhile_append_of_pos hdigit, hstop.1, hstop.2, List.append_nil]
  simp only [if_neg Nat.toDigits_ne_nil, Nat.ofDigitChars_ten_toDigits]

theorem length_le_flatMap_escape (read : List Char) :
    read.length ≤ (read.flatMap escape).length := by
  induction read with
  | nil => exact Nat.le_refl 0
  | cons c read ih =>
      have hc : 1 ≤ (escape c).length := by
        unfold escape
        split_ifs <;> simp
      rw [List.flatMap_cons, List.length_append, List.length_cons]
      omega

theorem length_quoted (text : String) : text.toList.length < (quoted text).toList.length := by
  have hle := length_le_flatMap_escape text.toList
  rw [toList_quoted, List.length_cons, List.length_append]
  omega

/-- A text or a number is read up to its end. -/
theorem readValue_flat {value : Json} (hflat : IsFlatValue value)
    (hfuel : (chars value).length ≤ fuel) (hrest : Ends rest) :
    readValue fuel (chars value ++ rest) = some (value, rest) := by
  rcases hflat with ⟨text, rfl⟩ | ⟨n, -, rfl⟩
  · have hshort : text.toList.length < fuel := Nat.lt_of_lt_of_le (length_quoted text) hfuel
    have hread : ((quoted text).toList ++ rest).head? = some '"' ∧
        readString fuel ((quoted text).toList ++ rest).tail = some (text.toList, rest) :=
      readString_quoted hshort
    rw [chars, render, readValue, if_pos hread.1, hread.2, Option.map_some, String.ofList_toList]
  · exact readValue_int hrest

/-- A field is read up to its end. -/
theorem readEntry_flat (hflat : IsFlatValue entry.2) (hfuel : (entryChars entry).length ≤ fuel)
    (hrest : Ends rest) :
    readEntry fuel (entryChars entry ++ rest) = some (entry, rest) := by
  rw [entryChars, List.length_append, List.length_cons] at hfuel
  have hname : entry.1.toList.length < fuel := by
    have := length_quoted entry.1
    omega
  obtain ⟨hopen, hread⟩ :
      ((quoted entry.1).toList ++ ':' :: (chars entry.2 ++ rest)).head? = some '"' ∧
        readString fuel ((quoted entry.1).toList ++ ':' :: (chars entry.2 ++ rest)).tail =
          some (entry.1.toList, ':' :: (chars entry.2 ++ rest)) := readString_quoted hname
  have hvalue : readValue fuel (chars entry.2 ++ rest) = some (entry.2, rest) :=
    readValue_flat hflat (by omega) hrest
  rw [entryChars, List.append_assoc, List.cons_append, readEntry]
  simp only [if_pos hopen, hread, Option.bind_eq_bind, Option.bind_some, List.head?_cons,
    List.tail_cons, if_true, hvalue, String.ofList_toList]
  rfl

/-- The fields are read up to the end of the object. -/
theorem readEntries_flat (hflat : ∀ other ∈ entry :: entries, IsFlatValue other.2)
    (hfuel : ∀ other ∈ entry :: entries, (entryChars other).length ≤ fuel)
    (hcount : entries.length < count) :
    readEntries fuel count (entryChars entry ++ (laterEntries entries ++ ['\x7d'])) =
      some (entry :: entries) := by
  induction entries generalizing entry count with
  | nil =>
      obtain ⟨count, rfl⟩ := Nat.exists_eq_succ_of_ne_zero (Nat.ne_of_gt hcount)
      have hread : readEntry fuel (entryChars entry ++ ['\x7d']) = some (entry, ['\x7d']) :=
        readEntry_flat (hflat entry List.mem_cons_self) (hfuel entry List.mem_cons_self)
          (ends_laterEntries [] [])
      rw [readEntries, laterEntries, List.flatMap_nil, List.nil_append, hread]
      rfl
  | cons next entries ih =>
      obtain ⟨count, rfl⟩ := Nat.exists_eq_succ_of_ne_zero (Nat.ne_of_gt (Nat.zero_lt_of_lt hcount))
      have hlater : laterEntries (next :: entries) ++ ['\x7d'] =
          ',' :: (entryChars next ++ (laterEntries entries ++ ['\x7d'])) := by
        simp [laterEntries]
      have hread := readEntry_flat (hflat entry List.mem_cons_self)
        (hfuel entry List.mem_cons_self) (ends_laterEntries (next :: entries) [])
      have hrest : readEntries fuel count
          (entryChars next ++ (laterEntries entries ++ ['\x7d'])) = some (next :: entries) :=
        ih (fun other hother => hflat other (List.mem_cons_of_mem entry hother))
          (fun other hother => hfuel other (List.mem_cons_of_mem entry hother))
          (Nat.lt_of_succ_lt_succ hcount)
      rw [hlater] at hread
      rw [readEntries, hlater, hread]
      simp only [Option.bind_eq_bind, Option.bind_some, List.head?_cons, List.tail_cons, if_true,
        hrest]
      rfl

theorem length_laterEntries (entries : List (String × Json)) :
    entries.length ≤ (laterEntries entries).length ∧
      ∀ other ∈ entries, (entryChars other).length ≤ (laterEntries entries).length := by
  induction entries with
  | nil => exact ⟨Nat.le_refl 0, by simp⟩
  | cons entry entries ih =>
      have hlength : (laterEntries (entry :: entries)).length =
          (entryChars entry).length + 1 + (laterEntries entries).length := by
        rw [laterEntries, List.flatMap_cons, List.length_append, List.length_cons]
        rfl
      rw [hlength, List.length_cons]
      refine ⟨by omega, List.forall_mem_cons.mpr ⟨by omega, fun other hother => ?_⟩⟩
      exact (ih.2 other hother).trans (Nat.le_add_left _ _)

/-- The parser reads a flat object back. -/
theorem parseFlat_render (hflat : ∀ other ∈ entries, IsFlatValue other.2) :
    parseFlat (render (.object entries)) = some (.object entries) := by
  cases entries with
  | nil => rfl
  | cons entry entries =>
      have hchars : (render (.object (entry :: entries))).toList =
          '\x7b' :: (entryChars entry ++ (laterEntries entries ++ ['\x7d'])) :=
        chars_object_cons entry entries
      have hopen : (entryChars entry).head? = some '"' := by
        rw [entryChars, toList_quoted]
        rfl
      have hmore : entryChars entry ++ (laterEntries entries ++ ['\x7d']) ≠ ['\x7d'] := by
        intro hempty
        have hhead := congrArg List.head? hempty
        rw [List.head?_append, hopen] at hhead
        exact absurd (Option.some.inj hhead) (by decide)
      have hnot : '\x7b' :: (entryChars entry ++ (laterEntries entries ++ ['\x7d'])) ≠
          ['\x7b', '\x7d'] := fun heq => hmore (List.cons.inj heq).2
      obtain ⟨hcount, hshort⟩ := length_laterEntries entries
      have hread : readEntries
          ('\x7b' :: (entryChars entry ++ (laterEntries entries ++ ['\x7d']))).length
          ('\x7b' :: (entryChars entry ++ (laterEntries entries ++ ['\x7d']))).length
          (entryChars entry ++ (laterEntries entries ++ ['\x7d'])) = some (entry :: entries) := by
        simp only [List.length_cons, List.length_append, List.length_nil]
        refine readEntries_flat hflat ?_ (by omega)
        refine List.forall_mem_cons.mpr ⟨by omega, fun other hother => ?_⟩
        exact (hshort other hother).trans (by omega)
      rw [parseFlat, hchars, if_neg hnot, List.head?_cons, if_pos rfl, List.tail_cons, hread]
      rfl

/-- The parser is one of those that the crate is relied on to be. -/
theorem readsFlat_parseFlat : ReadsFlat parseFlat := fun entries hentries =>
  ⟨.object entries, parseFlat_render hentries.2, fun _ => rfl⟩

end read

end Json

end OpenGuard.Lib
