import Mathlib.Data.List.TakeWhile
import OpenGuard.Lib.IpAddr

/-!
# The text of an IP address

* `isAddressChar_of_parseIpAddr`: what is parsed as an address has hexadecimal digits, dots and
  colons only.
* `parseIpAddr_text`: the text of an IPv4 address is parsed as that address.
* `parseIpAddr_mapped`: after `::ffff:` it is parsed as the IPv6 address that the IPv4 address is
  mapped to.
-/

namespace OpenGuard.Lib

/-! ## The characters of an address -/

/-- A hexadecimal digit, a dot or a colon. -/
def isAddressChar (c : Char) : Bool := (toDigit 16 c).isSome || c == '.' || c == ':'

/-- What was read of the characters are characters of an address. -/
def Reads (s rest : List Char) : Prop :=
  ∃ taken, s = taken ++ rest ∧ ∀ c ∈ taken, isAddressChar c

theorem Reads.refl (s : List Char) : Reads s s := ⟨[], rfl, by simp⟩

theorem Reads.trans {s t rest : List Char} (hst : Reads s t) (ht : Reads t rest) :
    Reads s rest := by
  obtain ⟨before, rfl, hbefore⟩ := hst
  obtain ⟨after, rfl, hafter⟩ := ht
  refine ⟨before ++ after, (List.append_assoc _ _ _).symm, fun c hc => ?_⟩
  exact (List.mem_append.mp hc).elim (hbefore c) (hafter c)

/-- Every digit is a hexadecimal one. -/
theorem isAddressChar_of_isDigit {radix : ℕ} (hradix : radix ≤ 16) {c : Char}
    (h : (toDigit radix c).isSome) : isAddressChar c := by
  have hhex : (toDigit 16 c).isSome := by
    unfold toDigit at *
    rw [Option.isSome_filter] at *
    refine Option.any_eq_true _ _ |>.mpr ?_
    obtain ⟨digit, hdigit, hlt⟩ := (Option.any_eq_true _ _).mp h
    exact ⟨digit, hdigit, decide_eq_true ((of_decide_eq_true hlt).trans_le hradix)⟩
  simp [isAddressChar, hhex]

section readers

variable {s rest : List Char}

theorem reads_givenChar {c : Char} (hc : isAddressChar c) (h : readGivenChar c s = some rest) :
    Reads s rest := by
  cases s with
  | nil => cases h
  | cons x s =>
      simp only [readGivenChar] at h
      split_ifs at h with hx
      obtain rfl := Option.some.inj h
      exact ⟨[x], rfl, by simpa [hx] using hc⟩

theorem reads_number {radix maxDigits value : ℕ} {allowZeroPrefix : Bool} (hradix : radix ≤ 16)
    (h : readNumber radix maxDigits allowZeroPrefix s = some (value, rest)) : Reads s rest := by
  unfold readNumber at h
  simp only at h
  split_ifs at h
  obtain ⟨_, -, hrest⟩ := Option.map_eq_some_iff.mp h
  obtain ⟨-, rfl⟩ := Prod.mk.inj hrest
  have hprefix := List.takeWhile_prefix (l := s) fun c => (toDigit radix c).isSome
  refine ⟨_, (List.prefix_iff_eq_append.mp hprefix).symm, fun c hc => ?_⟩
  exact isAddressChar_of_isDigit hradix
    (List.mem_takeWhile_imp (p := fun c => (toDigit radix c).isSome) hc)

theorem reads_separator {α : Type} {separator : Char} (hseparator : isAddressChar separator)
    {index : ℕ} {inner : List Char → Option (α × List Char)}
    (hinner : ∀ {s rest value}, inner s = some (value, rest) → Reads s rest) {value : α}
    (h : readSeparator separator index inner s = some (value, rest)) : Reads s rest := by
  unfold readSeparator at h
  split_ifs at h
  · obtain ⟨after, hafter, hread⟩ := Option.bind_eq_some_iff.mp h
    exact (reads_givenChar hseparator hafter).trans (hinner hread)
  · exact hinner h

theorem reads_octet {value : UInt8} (h : readOctet s = some (value, rest)) : Reads s rest := by
  obtain ⟨⟨number, after⟩, hnumber, hread⟩ := Option.bind_eq_some_iff.mp h
  split_ifs at hread
  obtain ⟨-, rfl⟩ := Prod.mk.inj (Option.some.inj hread)
  exact reads_number (by decide) hnumber

theorem reads_ipv4Addr {address : Ipv4Addr} (h : readIpv4Addr s = some (address, rest)) :
    Reads s rest := by
  have hoctet {index : ℕ} {s rest : List Char} {value : UInt8}
      (h : readSeparator '.' index readOctet s = some (value, rest)) : Reads s rest :=
    reads_separator (by decide) reads_octet h
  unfold readIpv4Addr at h
  obtain ⟨⟨a, s₁⟩, h₁, h⟩ := Option.bind_eq_some_iff.mp h
  obtain ⟨⟨b, s₂⟩, h₂, h⟩ := Option.bind_eq_some_iff.mp h
  obtain ⟨⟨c, s₃⟩, h₃, h⟩ := Option.bind_eq_some_iff.mp h
  obtain ⟨⟨d, s₄⟩, h₄, h⟩ := Option.bind_eq_some_iff.mp h
  obtain ⟨-, rfl⟩ := Prod.mk.inj (Option.some.inj h)
  exact (((hoctet h₁).trans (hoctet h₂)).trans (hoctet h₃)).trans (hoctet h₄)

theorem reads_groups (limit remaining : ℕ) (s : List Char) :
    Reads s (readGroups limit remaining s).2.2 := by
  induction remaining generalizing s with
  | zero => exact .refl s
  | succ remaining ih =>
      unfold readGroups
      dsimp only
      split
      · next v4 rest hembedded =>
          split_ifs at hembedded
          exact reads_separator (by decide) reads_ipv4Addr hembedded
      · split
        · next group rest hgroup =>
            exact (reads_separator (by decide) (reads_number (by decide)) hgroup).trans (ih rest)
        · exact .refl s

theorem reads_ipv6Addr {address : Ipv6Addr} (h : readIpv6Addr s = some (address, rest)) :
    Reads s rest := by
  unfold readIpv6Addr at h
  have hhead := reads_groups 8 8 s
  generalize readGroups 8 8 s = first at h hhead
  obtain ⟨head, headV4, s₁⟩ := first
  dsimp only at h hhead
  split_ifs at h
  · obtain ⟨_, -, h⟩ := Option.bind_eq_some_iff.mp h
    obtain ⟨-, rfl⟩ := Prod.mk.inj (Option.some.inj h)
    exact hhead
  · obtain ⟨s₂, h₂, h⟩ := Option.bind_eq_some_iff.mp h
    obtain ⟨s₃, h₃, h⟩ := Option.bind_eq_some_iff.mp h
    obtain ⟨_, -, h⟩ := Option.bind_eq_some_iff.mp h
    obtain ⟨-, rfl⟩ := Prod.mk.inj (Option.some.inj h)
    exact ((hhead.trans (reads_givenChar (by decide) h₂)).trans
      (reads_givenChar (by decide) h₃)).trans (reads_groups _ _ s₃)

end readers

/-- **The characters of an address** are hexadecimal digits, dots and colons. -/
theorem isAddressChar_of_parseIpAddr {s : String} {address : IpAddr}
    (h : parseIpAddr s = some address) : ∀ c ∈ s.toList, isAddressChar c := by
  obtain ⟨⟨parsed, rest⟩, hparsed, hrest⟩ := Option.bind_eq_some_iff.mp h
  split_ifs at hrest with hnil
  have hreads : Reads s.toList rest := by
    rcases Option.or_eq_some_iff.mp hparsed with hv4 | ⟨-, hv6⟩
    · obtain ⟨⟨value, after⟩, hread, heq⟩ := Option.map_eq_some_iff.mp hv4
      exact (Prod.mk.inj heq).2 ▸ reads_ipv4Addr hread
    · obtain ⟨⟨value, after⟩, hread, heq⟩ := Option.map_eq_some_iff.mp hv6
      exact (Prod.mk.inj heq).2 ▸ reads_ipv6Addr hread
  obtain ⟨taken, htaken, hall⟩ := hreads
  dsimp only at hnil
  rw [htaken, hnil, List.append_nil]
  exact hall

/-! ## The text of an IPv4 address -/

namespace Ipv4Addr

/-- `Display` of `Ipv4Addr` -/
def text (x : Ipv4Addr) : String :=
  toString x.a.toNat ++ "." ++ toString x.b.toNat ++ "." ++ toString x.c.toNat ++ "." ++
    toString x.d.toNat

/-- `Ipv4Addr::to_ipv6_mapped` -/
def mapped (x : Ipv4Addr) : Ipv6Addr where
  segments := [0, 0, 0, 0, 0, 0xffff, UInt16.ofNat (x.a.toNat * 256 + x.b.toNat),
    UInt16.ofNat (x.c.toNat * 256 + x.d.toNat)]
  length_eq := rfl

end Ipv4Addr

/-- The characters do not go on with a digit. -/
def NoDigit (radix : ℕ) (rest : List Char) : Prop :=
  ∀ c ∈ rest.head?, (toDigit radix c).isSome = false

/-- Digits are read up to the first character that is none. -/
theorem readNumber_digits {radix maxDigits value : ℕ} {allowZeroPrefix : Bool}
    {digits rest : List Char} (hdigits : ∀ c ∈ digits, (toDigit radix c).isSome)
    (hne : digits ≠ []) (hlength : digits.length ≤ maxDigits)
    (hzero : allowZeroPrefix ∨ digits.head? ≠ some '0' ∨ digits.length ≤ 1)
    (hvalue : digitsValue radix digits = some value) (hrest : NoDigit radix rest) :
    readNumber radix maxDigits allowZeroPrefix (digits ++ rest) = some (value, rest) := by
  have htake : (digits ++ rest).takeWhile (fun c => (toDigit radix c).isSome) = digits := by
    rw [List.takeWhile_append_of_pos hdigits]
    cases rest with
    | nil => simp
    | cons c rest => simp [hrest c rfl]
  unfold readNumber
  rw [htake]
  dsimp only
  rw [if_neg (by simp only [hne, false_or]; omega), if_neg, hvalue, List.drop_left]
  · rfl
  · rw [Bool.and_eq_true, Bool.and_eq_true, beq_iff_eq, decide_eq_true_eq, Bool.not_eq_true']
    rintro ⟨⟨hallow, hhead⟩, hlong⟩
    rcases hzero with hallowed | hother | hshort
    · exact Bool.false_ne_true (hallow.symm.trans hallowed)
    · exact hother hhead
    · omega

/-- The decimal text of an octet. -/
theorem octet_digits : ∀ n < 256,
    (toString n).toList.all (fun c => (toDigit 10 c).isSome) ∧ (toString n).toList ≠ [] ∧
      (toString n).toList.length ≤ 3 ∧
      ((toString n).toList.head? ≠ some '0' ∨ (toString n).toList.length ≤ 1) ∧
      digitsValue 10 (toString n).toList = some n := by
  decide +kernel

section text

variable {rest : List Char}

theorem readOctet_text (x : UInt8) (hrest : NoDigit 10 rest) :
    readOctet ((toString x.toNat).toList ++ rest) = some (x, rest) := by
  obtain ⟨hdigits, hne, hlength, hzero, hvalue⟩ := octet_digits x.toNat x.toNat_lt
  unfold readOctet
  rw [readNumber_digits (List.all_eq_true.mp hdigits) hne hlength (Or.inr hzero) hvalue hrest]
  simp [x.toNat_lt]

theorem readIpv4Addr_text (x : Ipv4Addr) (hrest : NoDigit 10 rest) :
    readIpv4Addr (x.text.toList ++ rest) = some (x, rest) := by
  have hdot (after : List Char) : NoDigit 10 ('.' :: after) := by
    intro c hc
    obtain rfl := Option.mem_some_iff.mp hc
    decide
  have hfirst (x : UInt8) {rest : List Char} (hrest : NoDigit 10 rest) :
      readSeparator '.' 0 readOctet ((toString x.toNat).toList ++ rest) = some (x, rest) := by
    exact readOctet_text x hrest
  have hnext (x : UInt8) {rest : List Char} (hrest : NoDigit 10 rest) {index : ℕ}
      (hindex : 0 < index) : readSeparator '.' index readOctet
        ('.' :: ((toString x.toNat).toList ++ rest)) = some (x, rest) := by
    rw [readSeparator, if_pos hindex]
    simpa [readGivenChar] using readOctet_text x hrest
  have htext : x.text.toList ++ rest = (toString x.a.toNat).toList ++ '.' ::
      ((toString x.b.toNat).toList ++ '.' :: ((toString x.c.toNat).toList ++ '.' ::
        ((toString x.d.toNat).toList ++ rest))) := by
    simp [Ipv4Addr.text, String.toList_append]
  unfold readIpv4Addr
  rw [htext, hfirst x.a (hdot _)]
  dsimp only [bind, Option.bind]
  rw [hnext x.b (hdot _) (by decide)]
  dsimp only
  rw [hnext x.c (hdot _) (by decide)]
  dsimp only
  rw [hnext x.d hrest (by decide)]
  rfl

theorem noDigit_nil (radix : ℕ) : NoDigit radix [] := by
  rintro c ⟨⟩

/-- **The text of an IPv4 address** is parsed as that address. -/
theorem parseIpAddr_text (x : Ipv4Addr) : parseIpAddr x.text = some (.v4 x) := by
  have hread := readIpv4Addr_text x (noDigit_nil 10)
  rw [List.append_nil] at hread
  simp [parseIpAddr, hread]

/-- The groups after the two colons: one group, and the embedded address. -/
theorem readGroups_mapped (x : Ipv4Addr) :
    readGroups 7 7 ("ffff:".toList ++ x.text.toList) =
      ([0xffff, UInt16.ofNat (x.a.toNat * 256 + x.b.toNat),
        UInt16.ofNat (x.c.toNat * 256 + x.d.toNat)], true, []) := by
  have hembedded : readSeparator ':' 1 readIpv4Addr (':' :: x.text.toList) = some (x, []) := by
    have hread := readIpv4Addr_text x (noDigit_nil 10)
    rw [List.append_nil] at hread
    simpa [readSeparator, readGivenChar] using hread
  have hlast : readGroups 7 6 (':' :: x.text.toList) =
      ([UInt16.ofNat (x.a.toNat * 256 + x.b.toNat),
        UInt16.ofNat (x.c.toNat * 256 + x.d.toNat)], true, []) := by
    rw [readGroups]
    simp only [Nat.reduceAdd, Nat.reduceSub, Nat.reduceLT, if_true, hembedded]
  have hgroup : readSeparator ':' 0 (readNumber 16 4 true) ("ffff".toList ++ ':' :: x.text.toList) =
      some (0xffff, ':' :: x.text.toList) := by
    have hcolon : NoDigit 16 (':' :: x.text.toList) := by
      intro c hc
      obtain rfl := Option.mem_some_iff.mp hc
      decide
    have hdigits : "ffff".toList.all (fun c => (toDigit 16 c).isSome) := by decide
    have hlength : "ffff".toList.length ≤ 4 := by decide
    have hvalue : digitsValue 16 "ffff".toList = some 0xffff := by decide
    exact readNumber_digits (List.all_eq_true.mp hdigits) (by decide) hlength (Or.inl rfl) hvalue hcolon
  have hnone : readSeparator ':' 0 readIpv4Addr ("ffff".toList ++ ':' :: x.text.toList) = none := rfl
  have htext : "ffff:".toList ++ x.text.toList = "ffff".toList ++ ':' :: x.text.toList := rfl
  rw [htext, readGroups]
  simp only [Nat.reduceAdd, Nat.reduceSub, Nat.reduceLT, if_true, hnone, hgroup, hlast]
  rfl

/-- **After `::ffff:`** the text of an IPv4 address is parsed as the address it is mapped to. -/
theorem parseIpAddr_mapped (x : Ipv4Addr) :
    parseIpAddr ("::ffff:" ++ x.text) = some (.v6 x.mapped) := by
  have htext : ("::ffff:" ++ x.text).toList = ':' :: ':' :: ("ffff:".toList ++ x.text.toList) := by
    rw [String.toList_append]
    rfl
  have hv4 : readIpv4Addr (':' :: ':' :: ("ffff:".toList ++ x.text.toList)) = none := rfl
  have hhead : readGroups 8 8 (':' :: ':' :: ("ffff:".toList ++ x.text.toList)) =
      ([], false, ':' :: ':' :: ("ffff:".toList ++ x.text.toList)) := rfl
  have hv6 : readIpv6Addr (':' :: ':' :: ("ffff:".toList ++ x.text.toList)) =
      some (x.mapped, []) := by
    unfold readIpv6Addr
    rw [hhead]
    simp only [List.length_nil, if_neg (show ¬(0 = 8) by decide), if_false, Bool.false_eq_true, readGivenChar,
      if_true, bind, Option.bind, Nat.zero_add, Nat.reduceSub, readGroups_mapped]
    rfl
  unfold parseIpAddr
  rw [htext, hv4, hv6]
  rfl

end text

end OpenGuard.Lib
