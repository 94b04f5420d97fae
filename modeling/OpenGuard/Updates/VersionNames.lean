import OpenGuard.Lib.JsonText
import OpenGuard.Lib.Lowercase
import OpenGuard.Updates.Steps

/-!
# The names of versions

A version is the name of a directory. Windows does not tell letters apart by their case, drops the
dots at the end of a name, goes to the directory itself or to its parent for a name of dots, and keeps
some names for devices.

* `placeOf`: what a name in a directory denotes.
* `OwnDirectory`: a version has a directory for itself, beside that of another version and of every
  installation.
* `ownDirectory_iff`: **which accepted versions do.**
-/

namespace OpenGuard.Updates

open OpenGuard.Lib

/-! ## What a name denotes -/

/-- The name by which Windows knows an entry: without case, and without the dots at its end. -/
def nameKey (name : String) : String := trimEndMatches '.' (toAsciiLowercase name)

/-- What a path leads to: a device, or an entry under the names of directories. -/
inductive Place where
  | device (name : String)
  | entry (names : List String)
  deriving DecidableEq

/-- What a name joined with a directory denotes. Which names are kept for devices depends on the
system. -/
def placeOf (devices : String → Bool) (directory : List String) (name : String) : Place :=
  if name = ".." then .entry directory.dropLast
  else if nameKey name = "" then .entry directory
  else if devices (nameKey name) then .device (nameKey name)
  else .entry (directory ++ [nameKey name])

/-- The text of a random UUID, as `Uuid::simple` writes it: 32 digits, of which one is the version and
one holds the variant. -/
def isSimpleUuid (text : String) : Bool :=
  text.toList.length = 32 && text.toList.all (fun c => c.isDigit || 'a' ≤ c && c ≤ 'f') &&
    text.toList[12]? = some '4' && text.toList[16]?.any fun c => "89ab".toList.contains c

/-- A version has a directory for itself: a child of the directory of the versions, that no
installation stages in, and that is not the one of the other version. -/
structure OwnDirectory (devices : String → Bool) (versionsRoot : List String)
    (version other : String) : Prop where
  child : ∃ name, placeOf devices versionsRoot version = .entry (versionsRoot ++ [name])
  unstaged : ∀ installed uuid, validateVersion installed = .ok () → isSimpleUuid uuid →
    placeOf devices versionsRoot version ≠
      placeOf devices versionsRoot (stagingName installed uuid)
  apart : version ≠ other →
    placeOf devices versionsRoot version ≠ placeOf devices versionsRoot other

/-- A version that is spelled like the staging directory of something. -/
def SpelledLikeStaging (version : String) : Prop :=
  ∃ middle uuid, middle ≠ "" ∧ isSimpleUuid uuid ∧ nameKey version = stagingName middle uuid

section names

variable {devices : String → Bool} {versionsRoot : List String} {version other uuid : String}

/-! ## Keys -/

theorem toList_nameKey (name : String) :
    (nameKey name).toList =
      ((name.toList.map Char.toLower).reverse.dropWhile (· == '.')).reverse := by
  rw [nameKey, trimEndMatches, toAsciiLowercase, String.toList_ofList, String.toList_ofList]

/-- Nothing is dropped from a text that does not end in a dot. -/
theorem trimEndMatches_of_last {s : String} {last : Char} (h : s.toList.getLast? = some last)
    (hlast : last ≠ '.') : trimEndMatches '.' s = s := by
  rw [List.getLast?_eq_head?_reverse] at h
  have hkeep : s.toList.reverse.dropWhile (· == '.') = s.toList.reverse := by
    cases hchars : s.toList.reverse with
    | nil => rfl
    | cons c rest =>
        rw [hchars, List.head?_cons, Option.some.injEq] at h
        rw [List.dropWhile_cons_of_neg (by simp [h, hlast])]
  rw [trimEndMatches, hkeep, List.reverse_reverse, String.ofList_toList]

/-- The key of a name of dots alone is empty. -/
theorem nameKey_eq_empty : nameKey version = "" ↔ ∀ c ∈ version.toList, c = '.' := by
  rw [← String.toList_eq_nil_iff, toList_nameKey, List.reverse_eq_nil_iff,
    List.dropWhile_eq_nil_iff]
  simp only [List.mem_reverse, List.mem_map, forall_exists_index, and_imp,
    forall_apply_eq_imp_iff₂, beq_iff_eq, toLower_eq_iff (d := '.') rfl]

/-- A character of the key is the lower case of one of the name. -/
theorem mem_nameKey {c : Char} (h : c ∈ (nameKey version).toList) :
    ∃ d ∈ version.toList, c = d.toLower := by
  rw [toList_nameKey, List.mem_reverse] at h
  obtain ⟨d, hd, rfl⟩ := List.mem_map.mp (List.mem_reverse.mp ((List.dropWhile_sublist _).subset h))
  exact ⟨d, hd, rfl⟩

theorem length_nameKey_le : (nameKey version).toList.length ≤ version.toList.length := by
  have h := (List.dropWhile_sublist (· == '.')
    (l := (version.toList.map Char.toLower).reverse)).length_le
  rw [toList_nameKey, List.length_reverse]
  simpa using h

/-! ## Accepted versions -/

/-- The characters of a version. -/
def isVersionChar (c : Char) : Bool := c.isAlphanum || c == '.' || c == '_' || c == '-'

theorem validateVersion_ok_iff : validateVersion version = .ok () ↔
    version ≠ "" ∧ version.utf8ByteSize ≤ 64 ∧ version.toList.all isVersionChar := ensure_eq_ok

theorem isVersionChar_toLower {c : Char} (h : isVersionChar c) : isVersionChar c.toLower := by
  by_cases hupper : c.isUpper
  · have halpha := Char.isAlpha_toLower_eq_isAlpha c
    rw [isAlpha_of_isUpper hupper] at halpha
    simp [isVersionChar, Char.isAlphanum, halpha]
  · rwa [Char.toLower_eq_of_not_isUpper hupper]

theorem utf8Size_versionChar {c : Char} (h : isVersionChar c) : c.utf8Size = 1 := by
  rw [Char.utf8Size_eq_one_iff, UInt32.le_iff_toNat_le]
  simp only [isVersionChar, Char.isAlphanum, Char.isAlpha, Char.isUpper, Char.isLower, Char.isDigit,
    Bool.or_eq_true, Bool.and_eq_true, decide_eq_true_eq, beq_iff_eq, UInt32.le_iff_toNat_le,
    ge_iff_le] at h
  obtain ((((⟨-, h⟩ | ⟨-, h⟩) | ⟨-, h⟩) | rfl) | rfl) | rfl := h
  · exact h.trans (by decide)
  · exact h.trans (by decide)
  · exact h.trans (by decide)
  all_goals decide

/-- Versions have as many bytes as characters. -/
theorem utf8ByteSize_version {s : String} (h : s.toList.all isVersionChar) :
    s.utf8ByteSize = s.toList.length := by
  have hsize : s.toList.map Char.utf8Size = s.toList.map fun _ => 1 :=
    List.map_congr_left fun c hc => utf8Size_versionChar (List.all_eq_true.mp h c hc)
  have hbytes := Json.utf8ByteSize_ofList s.toList
  rw [String.ofList_toList] at hbytes
  rw [hbytes, charBytes, hsize]
  simp

/-- A part of the key of an accepted version is itself one, in lower case. -/
theorem part_of_key {before part behind : String} (h : validateVersion version = .ok ())
    (hkey : nameKey version = before ++ part ++ behind) (hpart : part ≠ "") :
    validateVersion part = .ok () ∧ toAsciiLowercase part = part := by
  obtain ⟨-, hsize, hchars⟩ := validateVersion_ok_iff.mp h
  have hfrom : ∀ c ∈ part.toList, ∃ d ∈ version.toList, c = d.toLower := fun c hc =>
    mem_nameKey (by rw [hkey]; simp [hc])
  have hall : part.toList.all isVersionChar := by
    rw [List.all_eq_true]
    intro c hc
    obtain ⟨d, hd, rfl⟩ := hfrom c hc
    exact isVersionChar_toLower (List.all_eq_true.mp hchars d hd)
  have hlength : part.toList.length ≤ version.toList.length := by
    have hle : (nameKey version).toList.length ≤ version.toList.length := length_nameKey_le
    rw [hkey] at hle
    simp only [String.toList_append, List.length_append] at hle
    omega
  refine ⟨validateVersion_ok_iff.mpr ⟨hpart, ?_, hall⟩, ?_⟩
  · rw [utf8ByteSize_version hchars] at hsize
    rw [utf8ByteSize_version hall]
    exact hlength.trans hsize
  · have hsame : part.toList.map Char.toLower = part.toList := by
      refine (List.map_congr_left fun c hc => ?_).trans (List.map_id _)
      obtain ⟨d, -, rfl⟩ := hfrom c hc
      exact Char.toLower_toLower_eq_toLower d
    rw [toAsciiLowercase, hsame, String.ofList_toList]

/-! ## Staging directories -/

theorem toLower_of_digit {c : Char} (h : c.isDigit || 'a' ≤ c && c ≤ 'f') :
    c.toLower = c ∧ c ≠ '.' := by
  have hbounds : 48 ≤ c.toNat ∧ c.toNat ≤ 57 ∨ 97 ≤ c.toNat ∧ c.toNat ≤ 102 := by
    simp only [Char.isDigit, Bool.or_eq_true, Bool.and_eq_true, decide_eq_true_eq, ge_iff_le,
      Char.le_def, UInt32.le_iff_toNat_le] at h
    exact h
  have hupper : ¬ c.isUpper := by
    simp only [Char.isUpper, decide_eq_true_eq, ge_iff_le, UInt32.le_iff_toNat_le]
    rintro ⟨hlow, hhigh⟩
    have h65 : 65 ≤ c.toNat := hlow
    have h90 : c.toNat ≤ 90 := hhigh
    omega
  refine ⟨Char.toLower_eq_of_not_isUpper hupper, ?_⟩
  rintro rfl
  have hdot : '.'.toNat = 46 := rfl
  omega

/-- The key of a staging directory. -/
theorem nameKey_stagingName (h : isSimpleUuid uuid) :
    nameKey (stagingName version uuid) = stagingName (toAsciiLowercase version) uuid := by
  simp only [isSimpleUuid, Bool.and_eq_true, decide_eq_true_eq] at h
  obtain ⟨⟨⟨hlength, hdigits⟩, -⟩, -⟩ := h
  have hdigit : ∀ c ∈ uuid.toList, c.toLower = c ∧ c ≠ '.' := fun c hc =>
    toLower_of_digit (List.all_eq_true.mp hdigits c hc)
  have huuid : toAsciiLowercase uuid = uuid := by
    rw [toAsciiLowercase, (List.map_congr_left fun c hc => (hdigit c hc).1).trans (List.map_id _),
      String.ofList_toList]
  have hlower : toAsciiLowercase (stagingName version uuid) =
      stagingName (toAsciiLowercase version) uuid := by
    rw [stagingName, toAsciiLowercase_append, toAsciiLowercase_append, toAsciiLowercase_append,
      huuid]
    rfl
  obtain ⟨last, hlast⟩ : ∃ last, uuid.toList.getLast? = some last := by
    cases hchars : uuid.toList.getLast? with
    | some last => exact ⟨last, rfl⟩
    | none =>
        rw [List.getLast?_eq_none_iff.mp hchars] at hlength
        simp at hlength
  rw [nameKey, hlower]
  refine trimEndMatches_of_last ?_ (hdigit last (List.mem_of_getLast? hlast)).2
  rw [stagingName, String.toList_append, List.getLast?_append, hlast]
  rfl

/-! ## Places -/

/-- Names with the same key denote the same, unless they are `.` and `..`. -/
theorem placeOf_eq_entry (hname : nameKey version ≠ "")
    (hdevice : devices (nameKey version) = false) :
    placeOf devices versionsRoot version = .entry (versionsRoot ++ [nameKey version]) := by
  have hdots : version ≠ ".." := by rintro rfl; exact hname (by decide)
  rw [placeOf, if_neg hdots, if_neg hname, hdevice]
  rfl

/-- A name leads to a child unless it is dots alone or the name of a device. -/
theorem child_iff : (∃ name, placeOf devices versionsRoot version =
      .entry (versionsRoot ++ [name])) ↔
    nameKey version ≠ "" ∧ devices (nameKey version) = false := by
  constructor
  · rintro ⟨name, h⟩
    have hlength : ∀ names, Place.entry names = .entry (versionsRoot ++ [name]) →
        names.length = versionsRoot.length + 1 := by
      rintro names hnames
      rw [Place.entry.inj hnames, List.length_append, List.length_singleton]
    unfold placeOf at h
    split_ifs at h with hdots hempty hdevice
    · have hparent := hlength _ h
      rw [List.length_dropLast] at hparent
      omega
    · have hsame := hlength _ h
      omega
    · exact ⟨hempty, Bool.eq_false_iff.mpr hdevice⟩
  · exact fun ⟨hname, hdevice⟩ => ⟨_, placeOf_eq_entry hname hdevice⟩

/-- A place with a name of its own is that of the names with its key. -/
theorem placeOf_eq_iff (hname : nameKey version ≠ "")
    (hdevice : devices (nameKey version) = false) :
    placeOf devices versionsRoot version = placeOf devices versionsRoot other ↔
      nameKey version = nameKey other := by
  constructor
  · intro h
    have hchild : ∃ name, placeOf devices versionsRoot other = .entry (versionsRoot ++ [name]) :=
      ⟨_, h.symm.trans (placeOf_eq_entry hname hdevice)⟩
    obtain ⟨hothername, hotherdevice⟩ := child_iff.mp hchild
    rw [placeOf_eq_entry hname hdevice, placeOf_eq_entry hothername hotherdevice] at h
    simpa using h
  · intro h
    rw [placeOf_eq_entry hname hdevice, placeOf_eq_entry (h ▸ hname) (h ▸ hdevice), h]

/-- The store goes to the directory that Windows finds. -/
theorem placeOf_versionPath (hname : nameKey version ≠ "")
    (hdevice : devices (nameKey version) = false) :
    placeOf devices ["versions"] version = .entry ((versionPath version).map nameKey) := by
  have hdot : version ≠ "." := by rintro rfl; exact hname (by decide)
  have hdots : version ≠ ".." := by rintro rfl; exact hname (by decide)
  have hversions : nameKey "versions" = "versions" := by decide
  rw [placeOf_eq_entry hname hdevice, versionPath, if_neg hdot, if_neg hdots]
  simp [hversions]

/-- **Versions stay in their own directories** when they are not dots alone, name no device, are not
spelled like a staging directory, and differ from each other by more than case and dots at the end. -/
theorem ownDirectory_iff (hversion : validateVersion version = .ok ()) :
    OwnDirectory devices versionsRoot version other ↔
      (∃ c ∈ version.toList, c ≠ '.') ∧ devices (nameKey version) = false ∧
        ¬ SpelledLikeStaging version ∧ (version = other ∨ nameKey version ≠ nameKey other) := by
  have hdots : (∃ c ∈ version.toList, c ≠ '.') ↔ nameKey version ≠ "" := by
    rw [Ne, nameKey_eq_empty]
    simp
  rw [hdots]
  constructor
  · intro h
    obtain ⟨hname, hdevice⟩ := child_iff.mp h.child
    refine ⟨hname, hdevice, ?_, ?_⟩
    · rintro ⟨middle, uuid, hmiddle, huuid, hkey⟩
      obtain ⟨haccepted, hlower⟩ := part_of_key hversion
        (hkey.trans String.append_assoc) hmiddle
      refine h.unstaged middle uuid haccepted huuid ((placeOf_eq_iff hname hdevice).mpr ?_)
      rw [nameKey_stagingName huuid, hlower, hkey]
    · by_cases hsame : version = other
      · exact .inl hsame
      · exact .inr fun hkey => h.apart hsame ((placeOf_eq_iff hname hdevice).mpr hkey)
  · rintro ⟨hname, hdevice, hstaging, hapart⟩
    refine ⟨child_iff.mpr ⟨hname, hdevice⟩, fun installed uuid hinstalled huuid hplace => ?_,
      fun hne hplace => ?_⟩
    · have hkey := (placeOf_eq_iff hname hdevice).mp hplace
      rw [nameKey_stagingName huuid] at hkey
      obtain ⟨hnonempty, -⟩ := validateVersion_ok_iff.mp hinstalled
      refine hstaging ⟨toAsciiLowercase installed, uuid, ?_, huuid, hkey⟩
      intro hempty
      rw [← String.toList_eq_nil_iff, toAsciiLowercase, String.toList_ofList,
        List.map_eq_nil_iff, String.toList_eq_nil_iff] at hempty
      exact hnonempty hempty
    · exact hapart.elim hne fun hkey => hkey ((placeOf_eq_iff hname hdevice).mp hplace)

/-- The devices whose names have no number. -/
def deviceNames : List String := ["con", "prn", "aux", "nul"]

/-- A name is kept for a device when it is one up to its first dot. -/
def namesDevice (key : String) : Bool :=
  deviceNames.contains (String.ofList (key.toList.takeWhile (· != '.')))

/-- `ownDirectory_iff` for two versions in the usual form. -/
theorem ownDirectory_releases :
    OwnDirectory namesDevice ["content", "versions"] "2026.1" "2026.2" ↔
      (∃ c ∈ "2026.1".toList, c ≠ '.') ∧ namesDevice (nameKey "2026.1") = false ∧
        ¬ SpelledLikeStaging "2026.1" ∧
        ("2026.1" = "2026.2" ∨ nameKey "2026.1" ≠ nameKey "2026.2") :=
  ownDirectory_iff (by decide)

/-- The version `..` is accepted and denotes the parent of the directory of the versions; `...` denotes
that directory, and `v1` and `V1.` denote the same. -/
theorem versions_shared :
    validateVersion ".." = .ok () ∧ placeOf namesDevice ["content", "versions"] ".." =
      .entry ["content"] ∧
    validateVersion "..." = .ok () ∧ placeOf namesDevice ["content", "versions"] "..." =
      .entry ["content", "versions"] ∧
    validateVersion "v1" = .ok () ∧ validateVersion "V1." = .ok () ∧
    placeOf namesDevice ["content", "versions"] "v1" =
      placeOf namesDevice ["content", "versions"] "V1." ∧
    ¬ OwnDirectory namesDevice ["content", "versions"] ".." "v1" ∧
    ¬ OwnDirectory namesDevice ["content", "versions"] "v1" "V1." := by
  refine ⟨by decide, by decide, by decide, by decide, by decide, by decide, by decide, ?_, ?_⟩
  · rintro ⟨⟨name, hchild⟩, -, -⟩
    exact absurd (child_iff.mp ⟨name, hchild⟩).1 (by decide)
  · exact fun h => h.apart (by decide) (by decide)

end names

end OpenGuard.Updates
