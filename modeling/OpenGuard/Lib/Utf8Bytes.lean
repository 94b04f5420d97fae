import OpenGuard.Lib.FileTree

/-!
# UTF-8 and single bytes

A byte below 128 is a character of its own wherever it stands, so a byte sequence can be taken apart
and changed at such bytes.

* `eq_singleton_of_mem`: the bytes of a character are one byte below 128, or all of them are above.
* `isUtf8_append_cons_iff`: **around a byte below 128 both sides are UTF-8**, or the whole is not.
* `isUtf8_flatMap_iff`: the bytes below 128 may be replaced by others.
-/

namespace OpenGuard.Lib

open FileTree (utf8)

/-- The bytes are the UTF-8 of a text. -/
def IsUtf8 (bytes : List UInt8) : Prop := bytes.toByteArray.IsValidUTF8

instance (bytes : List UInt8) : Decidable (IsUtf8 bytes) :=
  inferInstanceAs (Decidable bytes.toByteArray.IsValidUTF8)

/-- The bytes of some characters. -/
def encodeChars (chars : List Char) : List UInt8 := chars.flatMap String.utf8EncodeChar

section bytes

variable {byte : UInt8} {bytes front back : List UInt8} {c : Char} {chars : List Char}

theorem isSome_fromUTF8?_iff : (String.fromUTF8? bytes.toByteArray).isSome ↔ IsUtf8 bytes := by
  unfold String.fromUTF8? IsUtf8
  split_ifs with h
  · exact iff_of_true rfl h
  · exact iff_of_false (by simp) h

theorem isUtf8_iff : IsUtf8 bytes ↔ ∃ chars, encodeChars chars = bytes := by
  constructor
  · rintro ⟨chars, hchars⟩
    refine ⟨chars, ?_⟩
    have hdata := congrArg (fun array => array.data.toList) hchars
    simpa [List.utf8Encode, encodeChars] using hdata.symm
  · rintro ⟨chars, rfl⟩
    exact ⟨chars, rfl⟩

theorem utf8_eq (text : String) : utf8 text = encodeChars text.toList := by
  obtain ⟨chars, rfl⟩ : ∃ chars, text = String.ofList chars := ⟨_, String.ofList_toList.symm⟩
  rw [String.toList_ofList]
  simp [utf8, encodeChars, List.utf8Encode]

theorem isUtf8_utf8 (text : String) : IsUtf8 (utf8 text) :=
  isUtf8_iff.mpr ⟨_, (utf8_eq text).symm⟩

theorem isUtf8_utf8EncodeChar (c : Char) : IsUtf8 (String.utf8EncodeChar c) :=
  isUtf8_iff.mpr ⟨[c], List.flatMap_singleton _ c⟩

/-- The bytes of a character are one byte below 128, or all of them are above. -/
theorem eq_singleton_of_mem (h : byte ∈ String.utf8EncodeChar c) (hlow : byte < 128) :
    String.utf8EncodeChar c = [byte] := by
  have hhigh (n : ℕ) (hn : 128 ≤ n) (hn' : n < 256) : ¬UInt8.ofNat n < 128 := by
    rw [UInt8.lt_iff_toNat_lt, UInt8.toNat_ofNat', Nat.mod_eq_of_lt hn']
    exact Nat.not_lt.mpr hn
  unfold String.utf8EncodeChar at h ⊢
  dsimp only at h ⊢
  split_ifs at h ⊢ with hone htwo hthree
  · rw [List.mem_singleton.mp h]
  · simp only [List.mem_cons, List.not_mem_nil, or_false] at h
    rcases h with rfl | rfl
    · exact absurd hlow (hhigh _ (by omega) (by omega))
    · exact absurd hlow (hhigh _ (by omega) (by omega))
  · simp only [List.mem_cons, List.not_mem_nil, or_false] at h
    rcases h with rfl | rfl | rfl
    · exact absurd hlow (hhigh _ (by omega) (by omega))
    · exact absurd hlow (hhigh _ (by omega) (by omega))
    · exact absurd hlow (hhigh _ (by omega) (by omega))
  · simp only [List.mem_cons, List.not_mem_nil, or_false] at h
    rcases h with rfl | rfl | rfl | rfl
    · exact absurd hlow (hhigh _ (by omega) (by omega))
    · exact absurd hlow (hhigh _ (by omega) (by omega))
    · exact absurd hlow (hhigh _ (by omega) (by omega))
    · exact absurd hlow (hhigh _ (by omega) (by omega))

theorem IsUtf8.append (hfront : IsUtf8 front) (hback : IsUtf8 back) : IsUtf8 (front ++ back) := by
  obtain ⟨chars, rfl⟩ := isUtf8_iff.mp hfront
  obtain ⟨others, rfl⟩ := isUtf8_iff.mp hback
  exact isUtf8_iff.mpr ⟨chars ++ others, List.flatMap_append⟩

theorem isUtf8_singleton (hlow : byte < 128) : IsUtf8 [byte] := by
  have hchar : ∀ n < 128, String.utf8EncodeChar (Char.ofNat n) = [UInt8.ofNat n] := by decide
  refine isUtf8_iff.mpr ⟨[Char.ofNat byte.toNat], ?_⟩
  rw [encodeChars, List.flatMap_singleton, hchar _ (UInt8.lt_iff_toNat_lt.mp hlow),
    UInt8.ofNat_toNat]

/-- **Around a byte below 128 both sides are UTF-8**, or the whole is not. -/
theorem isUtf8_append_cons_iff (hlow : byte < 128) :
    IsUtf8 (front ++ byte :: back) ↔ IsUtf8 front ∧ IsUtf8 back := by
  constructor
  · intro h
    obtain ⟨chars, hchars⟩ := isUtf8_iff.mp h
    clear h
    induction chars generalizing front with
    | nil => simp [encodeChars] at hchars
    | cons c chars ih =>
        rw [encodeChars, List.flatMap_cons, List.append_eq_append_iff] at hchars
        rcases hchars with ⟨later, rfl, hlater⟩ | ⟨later, hc, hlater⟩
        · obtain ⟨hfront, hback⟩ := ih hlater
          exact ⟨(isUtf8_utf8EncodeChar c).append hfront, hback⟩
        · cases later with
          | nil =>
              rw [List.append_nil] at hc
              rw [List.nil_append] at hlater
              refine ⟨hc ▸ isUtf8_utf8EncodeChar c, ?_⟩
              exact (@ih [] hlater.symm).2
          | cons b later =>
              -- the byte is one of this character's, so it is the whole character
              obtain ⟨rfl, rfl⟩ := List.cons.inj hlater
              have hsingle := eq_singleton_of_mem (c := c) (by simp [hc]) hlow
              rw [hsingle, List.singleton_eq_append_iff] at hc
              simp only [List.cons.injEq, reduceCtorEq, and_false, or_false, true_and] at hc
              obtain ⟨rfl, rfl⟩ := hc
              exact ⟨isUtf8_iff.mpr ⟨[], rfl⟩, isUtf8_iff.mpr ⟨chars, rfl⟩⟩
  · rintro ⟨hfront, hback⟩
    exact hfront.append ((isUtf8_singleton hlow).append hback)

/-- The same around some bytes below 128. -/
theorem isUtf8_append_append_iff (hne : bytes ≠ []) (hlow : ∀ b ∈ bytes, b < 128) :
    IsUtf8 (front ++ (bytes ++ back)) ↔ IsUtf8 front ∧ IsUtf8 back := by
  induction bytes generalizing front with
  | nil => exact absurd rfl hne
  | cons b bytes ih =>
      rw [List.cons_append, isUtf8_append_cons_iff (hlow b List.mem_cons_self)]
      refine and_congr_right fun _ => ?_
      by_cases hnone : bytes = []
      · rw [hnone, List.nil_append]
      · have hrest := @ih [] hnone fun c hc => hlow c (List.mem_cons_of_mem b hc)
        rw [← List.nil_append (bytes ++ back), hrest]
        exact and_iff_right (isUtf8_iff.mpr ⟨[], rfl⟩)

/-- The bytes below 128 may be replaced by others below 128. -/
theorem isUtf8_flatMap_iff {replace : UInt8 → List UInt8}
    (hhigh : ∀ b, ¬b < 128 → replace b = [b])
    (hlow : ∀ b < 128, replace b ≠ [] ∧ ∀ c ∈ replace b, c < 128) :
    IsUtf8 (bytes.flatMap replace) ↔ IsUtf8 bytes := by
  have hfront : ∀ front, IsUtf8 (front ++ bytes.flatMap replace) ↔ IsUtf8 (front ++ bytes) := by
    induction bytes with
    | nil => exact fun front => Iff.rfl
    | cons b bytes ih =>
        intro front
        rw [List.flatMap_cons]
        by_cases hb : b < 128
        · obtain ⟨hne, hall⟩ := hlow b hb
          rw [isUtf8_append_append_iff hne hall, isUtf8_append_cons_iff hb]
          exact and_congr_right fun _ => ih []
        · rw [hhigh b hb, ← List.append_assoc, ih, List.append_assoc, List.singleton_append]
  exact hfront []

/-- The one byte of a character below 128 is that of no other character. -/
theorem utf8EncodeChar_eq_singleton_iff {d : Char} (hc : c.toNat < 128) :
    String.utf8EncodeChar d = [UInt8.ofNat c.toNat] ↔ d = c := by
  constructor
  · intro h
    unfold String.utf8EncodeChar at h
    dsimp only at h
    split_ifs at h with hone
    · have hbyte := congrArg UInt8.toNat (List.singleton_inj.mp h)
      rw [UInt8.toNat_ofNat', UInt8.toNat_ofNat', Nat.mod_eq_of_lt (by omega),
        Nat.mod_eq_of_lt (by omega)] at hbyte
      exact Char.toNat_inj.mp hbyte
    · simp at h
    · simp at h
    · simp at h
  · rintro rfl
    unfold String.utf8EncodeChar
    exact if_pos (Nat.le_of_lt_succ hc)

/-- A byte below 128 stands in a text where its character does. -/
theorem mem_utf8_iff {text : String} (hc : c.toNat < 128) :
    UInt8.ofNat c.toNat ∈ utf8 text ↔ c ∈ text.toList := by
  have hlow : UInt8.ofNat c.toNat < 128 := by
    rw [UInt8.lt_iff_toNat_lt, UInt8.toNat_ofNat', Nat.mod_eq_of_lt (by omega)]
    exact hc
  rw [utf8_eq, encodeChars, List.mem_flatMap]
  constructor
  · rintro ⟨d, hd, hmem⟩
    exact (utf8EncodeChar_eq_singleton_iff hc).mp (eq_singleton_of_mem hmem hlow) ▸ hd
  · intro h
    refine ⟨c, h, ?_⟩
    rw [(utf8EncodeChar_eq_singleton_iff hc).mpr rfl]
    exact List.mem_singleton_self _

end bytes

end OpenGuard.Lib
