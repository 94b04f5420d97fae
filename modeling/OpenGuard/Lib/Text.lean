import Mathlib.Data.List.Infix
import Mathlib.Data.String.Basic
import Mathlib.Logic.Function.Iterate

/-!
# String operations of the standard library

The string functions the source calls, on `String` through its list of characters. Each has the
name the source uses for it, in this project's case.

Case conversion and comparison are the ASCII ones (`to_ascii_lowercase`,
`eq_ignore_ascii_case`); `trim` removes the characters with the Unicode property `White_Space`.
-/

namespace OpenGuard.Lib

/-- `str::to_ascii_lowercase`. -/
def toAsciiLowercase (s : String) : String := String.ofList (s.toList.map Char.toLower)

/-- `str::eq_ignore_ascii_case`. -/
def eqIgnoreAsciiCase (s t : String) : Bool := toAsciiLowercase s == toAsciiLowercase t

/-- `char::is_whitespace`: the characters with the Unicode property `White_Space`. -/
def isWhitespace (c : Char) : Bool :=
  let n := c.toNat
  (9 ≤ n && n ≤ 13) || n == 0x20 || n == 0x85 || n == 0xA0 || n == 0x1680 ||
    (0x2000 ≤ n && n ≤ 0x200A) || n == 0x2028 || n == 0x2029 || n == 0x202F || n == 0x205F ||
    n == 0x3000

/-- Removes the characters that satisfy `p` from both ends. -/
def trimMatches (p : Char → Bool) (s : String) : String :=
  String.ofList ((s.toList.dropWhile p).reverse.dropWhile p).reverse

/-- `str::trim`. -/
def trim (s : String) : String := trimMatches isWhitespace s

/-- `str::trim_end_matches` with one character. -/
def trimEndMatches (c : Char) (s : String) : String :=
  String.ofList (s.toList.reverse.dropWhile (· == c)).reverse

/-- `str::starts_with`. -/
def startsWith (s pattern : String) : Bool := pattern.toList.isPrefixOf s.toList

/-- `str::ends_with`. -/
def endsWith (s pattern : String) : Bool := pattern.toList.isSuffixOf s.toList

/-- `str::contains` with a string pattern. -/
def containsStr (s pattern : String) : Bool := s.toList.tails.any pattern.toList.isPrefixOf

/-- `str::strip_prefix`. -/
def stripPrefix (s pattern : String) : Option String :=
  if startsWith s pattern then some (String.ofList (s.toList.drop pattern.toList.length))
  else none

/-- `str::trim_start_matches` with a string pattern: the pattern is dropped as often as it is
there. -/
def trimStartMatches (s pattern : String) : String :=
  let dropOnce := fun chars : List Char =>
    if pattern.toList.isPrefixOf chars then chars.drop pattern.toList.length else chars
  String.ofList (dropOnce^[s.toList.length] s.toList)

/-- `str::replace` of one character by another. -/
def replaceChar (s : String) (a b : Char) : String :=
  String.ofList (s.toList.map fun c => if c = a then b else c)

/-- The first item of `str::rsplit` at the characters that satisfy `p`: what follows the last of
them, or the whole string. -/
def rsplitNext (p : Char → Bool) (s : String) : String :=
  String.ofList (s.toList.reverse.takeWhile fun c => !p c).reverse

/-- `str::rsplit_once` at a character, its second component. -/
def rsplitOnceSnd (c : Char) (s : String) : Option String :=
  if s.toList.contains c then some (rsplitNext (· == c) s) else none

/-- `char::to_digit`. -/
def toDigit (radix : ℕ) (c : Char) : Option ℕ :=
  let digit :=
    if '0' ≤ c ∧ c ≤ '9' then some (c.toNat - '0'.toNat)
    else if 'a' ≤ c ∧ c ≤ 'z' then some (c.toNat - 'a'.toNat + 10)
    else if 'A' ≤ c ∧ c ≤ 'Z' then some (c.toNat - 'A'.toNat + 10)
    else none
  digit.filter (· < radix)

/-- The value of a list of digits, if every character is one. -/
def digitsValue (radix : ℕ) (digits : List Char) : Option ℕ :=
  digits.foldl (fun value c => do return (← value) * radix + (← toDigit radix c)) (some 0)

/-- `u32::from_str_radix`: an optional `+`, at least one digit, and no overflow. -/
def u32FromStrRadix (s : String) (radix : ℕ) : Option UInt32 :=
  let digits := match s.toList with
    | '+' :: rest => rest
    | other => other
  if digits = [] then none
  else ((digitsValue radix digits).filter (· < 2 ^ 32)).map UInt32.ofNat

/-- `str::parse::<u32>`. -/
def parseU32 (s : String) : Option UInt32 := u32FromStrRadix s 10

/-- `str::parse::<u64>`. -/
def parseU64 (s : String) : Option ℕ :=
  let digits := match s.toList with
    | '+' :: rest => rest
    | other => other
  if digits = [] then none else (digitsValue 10 digits).filter (· < 2 ^ 64)

/-- `slice::join` of strings with a separator. -/
def joinWith (separator : String) : List String → String
  | [] => ""
  | [s] => s
  | s :: t :: rest => s ++ separator ++ joinWith separator (t :: rest)

/-- The separators of Windows paths. -/
def isSeparator (c : Char) : Bool := c == '\\' || c == '/'

/-- What follows the two separators names a server and a share. -/
def namesShare (chars : List Char) : Bool :=
  match chars.splitOnP isSeparator with
  | server :: share :: _ => server ≠ [] && share ≠ []
  | _ => false

/-- `Path::is_absolute` on Windows: a verbatim or device path, a share of a server, or a drive
letter, a colon and a separator. -/
def isAbsolutePath (path : String) : Bool :=
  match path.toList with
  | a :: b :: rest =>
      if isSeparator a && isSeparator b then
        match rest with
        | '?' :: '\\' :: _ => true
        | '.' :: c :: _ => isSeparator c || namesShare rest
        | _ => namesShare rest
      else a.isAlpha && b == ':' && rest.head?.any isSeparator
  | _ => false

example : isAbsolutePath "C:\\Tools\\agent.exe" ∧ isAbsolutePath "\\\\host\\share\\a.exe" ∧
    ¬ isAbsolutePath "agent.exe" := by decide

example : parseU32 "+4660" = some 4660 ∧ u32FromStrRadix "1a" 16 = some 26 := by decide

theorem startsWith_append {s pattern : String} (t : String) (h : startsWith s pattern) :
    startsWith (s ++ t) pattern := by
  unfold startsWith at h ⊢
  rw [String.toList_append, List.isPrefixOf_iff_prefix] at *
  exact h.trans (List.prefix_append _ _)

theorem toAsciiLowercase_append (s t : String) :
    toAsciiLowercase (s ++ t) = toAsciiLowercase s ++ toAsciiLowercase t := by
  unfold toAsciiLowercase
  rw [String.toList_append, List.map_append, String.ofList_append]

/-- Two lists split at the first occurrence of a separator in the same way. -/
theorem split_at_separator {α : Type*} {a : α} {x₁ x₂ z₁ z₂ : List α} (h₁ : a ∉ x₁) (h₂ : a ∉ x₂)
    (h : x₁ ++ a :: z₁ = x₂ ++ a :: z₂) : x₁ = x₂ ∧ z₁ = z₂ := by
  induction x₁ generalizing x₂ with
  | nil =>
      cases x₂ with
      | nil => exact ⟨rfl, (List.cons.inj h).2⟩
      | cons b x₂ => exact absurd ((List.cons.inj h).1 ▸ List.mem_cons_self) h₂
  | cons b x₁ ih =>
      cases x₂ with
      | nil => exact absurd ((List.cons.inj h).1.symm ▸ List.mem_cons_self) h₁
      | cons c x₂ =>
          obtain ⟨rfl, hrest⟩ := List.cons.inj h
          obtain ⟨rfl, hz⟩ := ih (fun hmem => h₁ (List.mem_cons_of_mem b hmem))
            (fun hmem => h₂ (List.mem_cons_of_mem b hmem)) hrest
          exact ⟨rfl, hz⟩

/-- What `trimMatches` leaves is no longer than the string. -/
theorem length_trimMatches_le (p : Char → Bool) (s : String) :
    (trimMatches p s).toList.length ≤ s.toList.length := by
  have h₁ := (List.dropWhile_sublist p (l := s.toList)).length_le
  have h₂ := (List.dropWhile_sublist p (l := (s.toList.dropWhile p).reverse)).length_le
  rw [trimMatches, String.toList_ofList, List.length_reverse]
  rw [List.length_reverse] at h₂
  exact h₂.trans h₁

/-- `LIKE` on lists of characters: `%` stands for any characters, `_` for one, and letters are
compared without their ASCII case. -/
def likeChars : List Char → List Char → Bool
  | [], text => text.isEmpty
  | c :: pattern, text =>
      if c = '%' then text.tails.any (likeChars pattern)
      else
        match text with
        | [] => false
        | d :: rest => (c == '_' || c.toLower == d.toLower) && likeChars pattern rest

/-- The operator `LIKE` of SQLite without an escape character. -/
def like (text pattern : String) : Bool := likeChars pattern.toList text.toList

/-- The first character of a text stays when more follows. -/
theorem head?_toList_append {text rest : String} {c : Char} (h : text.toList.head? = some c) :
    (text ++ rest).toList.head? = some c := by
  rw [String.toList_append, List.head?_append, h]
  rfl

/-- The characters of a joined list: the first text, and each later one behind the separator. -/
theorem toList_joinWith (separator text : String) (texts : List String) :
    (joinWith separator (text :: texts)).toList =
      text.toList ++ texts.flatMap fun later => separator.toList ++ later.toList := by
  induction texts generalizing text with
  | nil => simp [joinWith]
  | cons next texts ih =>
      rw [joinWith, String.toList_append, String.toList_append, ih]
      simp

/-- A text that is joined with others is part of the whole. -/
theorem exists_joinWith_eq (separator : String) {text : String} {texts : List String}
    (h : text ∈ texts) :
    ∃ s t, joinWith separator texts = s ++ text ++ t := by
  induction texts with
  | nil => cases h
  | cons first rest ih =>
      cases rest with
      | nil =>
          obtain rfl := List.mem_singleton.mp h
          exact ⟨"", "", by simp [joinWith]⟩
      | cons second rest =>
          obtain rfl | h := List.mem_cons.mp h
          · exact ⟨"", separator ++ joinWith separator (second :: rest), by
              simp [joinWith, String.append_assoc]⟩
          · obtain ⟨s, t, hjoin⟩ := ih h
            refine ⟨first ++ separator ++ s, t, ?_⟩
            rw [joinWith, hjoin]
            simp only [String.append_assoc]

/-- A number is written in digits. -/
theorem isDigit_of_mem_toString {n : ℕ} {c : Char} (h : c ∈ (toString n).toList) : c.isDigit := by
  have hdigits : (toString n).toList = Nat.toDigits 10 n := Nat.toList_repr
  rw [hdigits] at h
  exact Nat.isDigit_of_mem_toDigits (by decide) (by decide) h

/-- Different numbers have different decimal texts. -/
theorem toString_nat_injective : Function.Injective (toString : ℕ → String) := by
  intro m n h
  have hdigits : Nat.toDigits 10 m = Nat.toDigits 10 n := String.ofList_injective h
  rw [← Nat.ofDigitChars_toDigits (b := 10) (n := m) (by decide) (by decide), hdigits,
    Nat.ofDigitChars_toDigits (by decide) (by decide)]

end OpenGuard.Lib
