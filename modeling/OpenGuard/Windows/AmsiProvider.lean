import Mathlib.Algebra.Order.Group.Nat
import Mathlib.Data.List.Infix
import OpenGuard.Lib.FileTree

/-!
# The antimalware provider

Windows hands a stream of content to the provider, which asks for its size, reads it in pieces, looks
for texts in it, and says how bad it is. The caller decides how long the pieces are.

* `assess`: how bad some content is; `assess_le_of_part`: something around it does not make it better.
* `scan`: the scan of a stream.
* `scan_complete`: the result is that of the whole content, however it is cut into pieces.
* `scan_le`: whatever fails or ends too early, the result is never worse than the content.
-/

namespace OpenGuard.Windows

open OpenGuard.Lib
open FileTree (utf8)

namespace AmsiProvider

/-! ## The assessment -/

/-- Source: `openguard_amsi.cpp`, `Contains` -/
def contains (text : List UInt8) (needle : String) : Bool :=
  text.tails.any (utf8 needle).isPrefixOf

/-- Source: `openguard_amsi.cpp`, `ContainsAny` -/
def containsAny (text : List UInt8) (needles : List String) : Bool := needles.any (contains text)

/-- Source: `openguard_amsi.cpp`, `Lowercase` -/
def lowercase (content : List UInt8) : List UInt8 :=
  content.map fun byte => if 65 ≤ byte ∧ byte ≤ 90 then byte + 32 else byte

/-- `AMSI_RESULT_NOT_DETECTED` -/
def notDetected : ℕ := 1

/-- The results, from the worst on: `AMSI_RESULT_DETECTED`, two in between, and `AMSI_RESULT_CLEAN`.
Source: `openguard_amsi.cpp`, `Assess` -/
def grade (marked grave serious : Bool) : ℕ :=
  if marked then 32768 else if grave then 31000 else if serious then 20000 else 0

/-- Source: `openguard_amsi.cpp`, `Assess` -/
def assess (content : List UInt8) : ℕ :=
  let text := lowercase content
  let marked := contains text "eicar-standard-antivirus-test-file" ||
    contains text "openguard_signed_content_test_marker_2026"
  let encoded := containsAny text ["-encodedcommand", "frombase64string("]
  let dynamic := containsAny text ["invoke-expression", "iex(", "downloadstring("]
  let injection := containsAny text ["writeprocessmemory", "createremotethread"] &&
    containsAny text ["virtualallocex", "ntallocatevirtualmemory"]
  let browser := containsAny text ["\\google\\chrome\\user data", "login data", "cookies.sqlite",
      "network\\cookies"] &&
    containsAny text ["cryptunprotectdata", "os_crypt.encrypted_key"] &&
    containsAny text ["sqlite3_open", "copyfile"]
  let credentialDump := contains text "lsass" &&
    containsAny text ["minidumpwritedump", "comsvcs.dll", "sekurlsa"]
  grade marked (browser || credentialDump || encoded && dynamic && injection)
    (encoded && dynamic || injection)

section assess

variable {text more content : List UInt8} {needle : String} {needles : List String}

theorem contains_iff : contains text needle ↔ utf8 needle <:+: text := by
  unfold contains
  rw [List.any_eq_true]
  constructor
  · rintro ⟨tail, htail, hneedle⟩
    exact (List.isPrefixOf_iff_prefix.mp hneedle).isInfix.trans
      ((List.mem_tails _ _).mp htail).isInfix
  · rintro ⟨before, after, h⟩
    refine ⟨utf8 needle ++ after, (List.mem_tails _ _).mpr ⟨before, ?_⟩, ?_⟩
    · rw [← List.append_assoc, h]
    · exact List.isPrefixOf_iff_prefix.mpr (List.prefix_append _ _)

theorem contains_mono (h : text <:+: more) (hneedle : contains text needle) :
    contains more needle :=
  contains_iff.mpr ((contains_iff.mp hneedle).trans h)

theorem containsAny_mono (h : text <:+: more) (hneedles : containsAny text needles) :
    containsAny more needles := by
  obtain ⟨needle, hmem, hneedle⟩ := List.any_eq_true.mp hneedles
  exact List.any_eq_true.mpr ⟨needle, hmem, contains_mono h hneedle⟩

theorem grade_mono {marked grave serious marked' grave' serious' : Bool} (hmarked : marked → marked')
    (hgrave : grave → grave') (hserious : serious → serious') :
    grade marked grave serious ≤ grade marked' grave' serious' := by
  unfold grade
  split_ifs <;> simp_all

/-- **Something around the content does not make it better.** -/
theorem assess_le_of_part (h : content <:+: more) : assess content ≤ assess more := by
  have htext : lowercase content <:+: lowercase more := h.map _
  have hone : ∀ {needle}, contains (lowercase content) needle → contains (lowercase more) needle :=
    contains_mono htext
  have hany : ∀ {needles}, containsAny (lowercase content) needles →
      containsAny (lowercase more) needles := containsAny_mono htext
  unfold assess
  simp only
  refine grade_mono ?_ ?_ ?_
  all_goals simp only [Bool.or_eq_true, Bool.and_eq_true]
  · exact Or.imp hone hone
  · refine Or.imp (Or.imp ?_ ?_) ?_
    · exact And.imp (And.imp hany hany) hany
    · exact And.imp hone hany
    · exact And.imp (And.imp hany hany) (And.imp hany hany)
  · exact Or.imp (And.imp hany hany) (And.imp hany hany)

end assess

/-! ## The scan -/

/-- What the caller answers: the number of bytes of the size and the size, and the bytes from an offset
on, at most as many as were asked for; or an error. No offset is asked for twice.
Source: `openguard_amsi.cpp`, `Provider::Scan` -/
structure Stream where
  contentSize : Except UInt32 (ℕ × ℕ)
  read : ℕ → ℕ → Except UInt32 (List UInt8)
  within : ∀ offset request bytes, read offset request = .ok bytes → bytes.length ≤ request

/-- Source: `openguard_amsi.cpp`, `kMaximumContentBytes` -/
def maximumContentBytes : ℕ := 16 * 1024 * 1024

/-- The loop, with a bound of the reads that are left.
Source: `openguard_amsi.cpp`, `Provider::Scan` -/
def readContent (stream : Stream) (size : ℕ) :
    ℕ → List UInt8 → Except UInt32 (List UInt8)
  | 0, content => .ok content
  | left + 1, content =>
      if content.length < size then
        match stream.read content.length (min (size - content.length) (1024 * 1024)) with
        | .error status => .error status
        | .ok [] => .ok content
        | .ok (byte :: bytes) => readContent stream size left (content ++ byte :: bytes)
      else .ok content

/-- The status that is returned, and the result that is written. Every read gives a byte, so the size
bounds the reads.
Source: `openguard_amsi.cpp`, `Provider::Scan` -/
def scan (stream : Stream) : UInt32 × ℕ :=
  match stream.contentSize with
  | .error status => (status, notDetected)
  | .ok (received, size) =>
      if received ≠ 8 ∨ maximumContentBytes < size then (0, notDetected)
      else
        match readContent stream size size [] with
        | .error status => (status, notDetected)
        | .ok content => (0, assess content)

/-! ## What a scan comes to -/

/-- What the stream gives is the content from the offset on. -/
def Stream.Gives (stream : Stream) (content : List UInt8) : Prop :=
  ∀ offset request bytes, stream.read offset request = .ok bytes → bytes <+: content.drop offset

/-- Before its end, the stream gives at least a byte. -/
def Stream.Reliable (stream : Stream) (size : ℕ) : Prop :=
  ∀ offset request, offset < size → 0 < request → ∃ byte bytes,
    stream.read offset request = .ok (byte :: bytes)

section scan

variable {stream : Stream} {content read : List UInt8} {size left : ℕ}

/-- A piece that follows on the front of the content. -/
theorem prefix_append_piece {front piece : List UInt8} (hfront : front <+: content)
    (hpiece : piece <+: content.drop front.length) : front ++ piece <+: content := by
  obtain ⟨rest, rfl⟩ := hfront
  rw [List.drop_left] at hpiece
  exact (List.prefix_append_right_inj front).mpr hpiece

/-- What is read is the front of the content. -/
theorem readContent_prefix (hgives : stream.Gives content) (hfront : read <+: content)
    {result : List UInt8} (h : readContent stream size left read = .ok result) :
    result <+: content := by
  induction left generalizing read with
  | zero => exact Except.ok.inj h ▸ hfront
  | succ left ih =>
      unfold readContent at h
      split_ifs at h with hmore
      · split at h
        · cases h
        · exact Except.ok.inj h ▸ hfront
        · rename_i byte bytes hread
          exact ih (prefix_append_piece hfront (hgives _ _ _ hread)) h
      · exact Except.ok.inj h ▸ hfront

/-- A stream that is reliable is read to its end, and the bound of the reads does not cut it. -/
theorem readContent_complete (hgives : stream.Gives content) (hreliable : stream.Reliable size)
    (hsize : size = content.length) (hfront : read <+: content)
    (hleft : size ≤ read.length + left) : readContent stream size left read = .ok content := by
  induction left generalizing read with
  | zero =>
      have hend : read.length = content.length := by
        have hle := hfront.length_le
        omega
      rw [readContent, hfront.eq_of_length hend]
  | succ left ih =>
      unfold readContent
      split_ifs with hmore
      · obtain ⟨byte, bytes, hread⟩ := hreliable read.length
          (min (size - read.length) (1024 * 1024)) hmore (by omega)
        rw [hread]
        refine ih (prefix_append_piece hfront (hgives _ _ _ hread)) ?_
        rw [List.length_append, List.length_cons]
        omega
      · have hend : read.length = content.length := by
          have hle := hfront.length_le
          omega
        rw [hfront.eq_of_length hend]

/-- **The result is that of the whole content**, however the caller cuts it into pieces. -/
theorem scan_complete (hsize : stream.contentSize = .ok (8, content.length))
    (hfits : content.length ≤ maximumContentBytes) (hgives : stream.Gives content)
    (hreliable : stream.Reliable content.length) : scan stream = (0, assess content) := by
  have hread : readContent stream content.length content.length [] = .ok content :=
    readContent_complete hgives hreliable rfl List.nil_prefix (by simp)
  have hfew : ¬((8 : ℕ) ≠ 8 ∨ maximumContentBytes < content.length) := by omega
  simp only [scan, hsize, if_neg hfew, hread]

/-- **A scan that fails or ends too early finds nothing that is not there.** -/
theorem scan_le (hgives : stream.Gives content) :
    (scan stream).2 ≤ max notDetected (assess content) := by
  unfold scan
  split
  · exact Nat.le_max_left _ _
  · split_ifs
    · exact Nat.le_max_left _ _
    · split
      · exact Nat.le_max_left _ _
      · rename_i read hread
        have hfirst := readContent_prefix hgives List.nil_prefix hread
        exact (assess_le_of_part hfirst.isInfix).trans (Nat.le_max_right _ _)

end scan

/-- A caller that gives a byte at a time. -/
def byteStream (content : List UInt8) : Stream where
  contentSize := .ok (8, content.length)
  read offset request := .ok ((content.drop offset).take (min request 1))
  within offset request bytes h := by
    obtain rfl := Except.ok.inj h
    simp only [List.length_take]
    omega

theorem byteStream_gives (content : List UInt8) : (byteStream content).Gives content := by
  intro offset request bytes h
  obtain rfl := Except.ok.inj h
  exact List.take_prefix _ _

theorem byteStream_reliable (content : List UInt8) :
    (byteStream content).Reliable content.length := by
  intro offset request hoffset hrequest
  refine ⟨content[offset], [], congrArg Except.ok ?_⟩
  rw [List.drop_eq_getElem_cons hoffset, Nat.min_eq_right hrequest, List.take_succ_cons,
    List.take_zero]

/-- `scan_complete` for a script that comes byte by byte. -/
theorem scan_complete_bytes :
    scan (byteStream (utf8 "IEX(x.DownloadString('u') -EncodedCommand")) = (0, 20000) :=
  (scan_complete rfl (by decide) (byteStream_gives _) (byteStream_reliable _)).trans (by decide)

/-- `scan_le` for the same script. -/
theorem scan_le_bytes : (scan (byteStream (utf8 "iex(x)"))).2 ≤ 1 :=
  (scan_le (byteStream_gives _)).trans (by decide)

end AmsiProvider

end OpenGuard.Windows
