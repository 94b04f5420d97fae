import Mathlib.Algebra.BigOperators.Group.Finset.Piecewise
import Mathlib.Algebra.BigOperators.Group.Finset.Sigma
import Mathlib.Data.Finset.Sum
import OpenGuard.Detection.MoreEvidence

/-!
# Independent primitives

A capability is reported for a combination of primitives, and each is looked for in the whole text.
One part of the text can then stand for two primitives: a name that is in two groups, or two names
of which one ends as the other begins.

* `exists_apart_iff`: two groups have occurrences that share nothing exactly when their pairs are
  more than the texts in which they are joined.
* `clashTexts_groups`: **every pair of texts**, and the texts that they make.
* `backed_capture`, `backed_injection`: screen capture and process injection are always backed.
* `independent_iff`: **every capability that is reported has as many different occurrences as
  groups** exactly when the counts of keyboard, browser, dumping and remote control allow it.
-/

namespace OpenGuard.Detection

open OpenGuard.Lib OpenGuard.Domain

/-! ## Occurrences of primitives -/

/-- An occurrence of a primitive: an imported name, or a text at a place. -/
abbrev PrimitiveOccurrence := String ⊕ (String × ℕ)

/-- The names and the texts that stand for one primitive. -/
structure PrimitiveGroup where
  importNames : Finset String
  texts : Finset String
  notMem_texts : "" ∉ texts

namespace PrimitiveGroup

/-- A primitive with other names among the imports than in the text. -/
def ofLists (names texts : List String) (htexts : "" ∉ texts) : PrimitiveGroup :=
  ⟨names.toFinset, texts.toFinset, fun h => htexts (List.mem_toFinset.mp h)⟩

/-- A primitive whose names are looked for among the imports and in the text. -/
def named (names : List String) (hnames : "" ∉ names) : PrimitiveGroup :=
  ofLists names names hnames

variable (group other : PrimitiveGroup) (imports : List String) (strings : String)

/-- The names that are imported. -/
def imported : Finset String := group.importNames.filter fun name => imports.contains name

/-- The occurrences in an input. -/
def occurrences : Finset PrimitiveOccurrence :=
  (group.imported imports).disjSum (written strings group.texts)

/-- How often one occurrence stands for both groups, or two share a part: the common imports, and
the joined texts. -/
def clashes : ℕ :=
  (group.imported imports ∩ other.imported imports).card +
    (joinCount strings 0 group.texts other.texts + joinCount strings 1 other.texts group.texts)

/-- The texts that stand for both groups at once. -/
def clashTexts : Multiset String :=
  joinedTexts 0 group.texts other.texts + joinedTexts 1 other.texts group.texts

end PrimitiveGroup

/-- Different imports, or parts of the text that share nothing. -/
def Apart : PrimitiveOccurrence → PrimitiveOccurrence → Prop
  | .inl name, .inl other => name ≠ other
  | .inr a, .inr b => ¬Overlap a b
  | _, _ => True

instance : DecidableRel Apart
  | .inl name, .inl other => inferInstanceAs (Decidable (name ≠ other))
  | .inr a, .inr b => inferInstanceAs (Decidable ¬Overlap a b)
  | .inl _, .inr _ => .isTrue trivial
  | .inr _, .inl _ => .isTrue trivial

namespace PrimitiveGroup

variable (group other : PrimitiveGroup) (imports : List String) (strings : String)

/-- The occurrences that share something with the given one. -/
def blockedBy (occurrence : PrimitiveOccurrence) : Finset PrimitiveOccurrence :=
  (group.occurrences imports strings).filter fun a => ¬Apart a occurrence

/-- How many occurrences every choice from the other group takes, when none takes two. -/
def taken : ℕ :=
  if group.clashes other imports strings < (other.occurrences imports strings).card then 0 else 1

/-- There are more pairs of occurrences than clashes. -/
def PairsRemain : Prop :=
  group.clashes other imports strings <
    (group.occurrences imports strings).card * (other.occurrences imports strings).card

end PrimitiveGroup

/-- Each group has an occurrence, and no two of these share anything. -/
def Backed (imports : List String) (strings : String) (groups : List PrimitiveGroup) : Prop :=
  ∃ occurrences : List PrimitiveOccurrence,
    List.Forall₂ (fun group occurrence => occurrence ∈ group.occurrences imports strings) groups
      occurrences ∧
      occurrences.Pairwise Apart

section apart

variable {imports : List String} {strings : String} {group other : PrimitiveGroup}
  {a b : PrimitiveOccurrence}

/-- The pairs that are not apart are as many as the clashes. -/
theorem card_not_apart :
    ((group.occurrences imports strings ×ˢ other.occurrences imports strings).filter fun pair =>
      ¬Apart pair.1 pair.2).card = group.clashes other imports strings := by
  rw [PrimitiveGroup.clashes, ← card_overlap group.notMem_texts other.notMem_texts,
    ← Finset.card_disjSum]
  symm
  refine Finset.card_bij
    (fun clash _ => Sum.elim (fun name => (.inl name, .inl name))
      (fun pair => (.inr pair.1, .inr pair.2)) clash) ?_ ?_ ?_
  · rintro (name | ⟨a, b⟩) hclash
    · obtain ⟨hname, hother⟩ := Finset.mem_inter.mp (Finset.inl_mem_disjSum.mp hclash)
      refine Finset.mem_filter.mpr ⟨Finset.mem_product.mpr ⟨?_, ?_⟩, fun h => h rfl⟩
      · exact Finset.inl_mem_disjSum.mpr hname
      · exact Finset.inl_mem_disjSum.mpr hother
    · obtain ⟨hmem, hoverlap⟩ := Finset.mem_filter.mp (Finset.inr_mem_disjSum.mp hclash)
      obtain ⟨ha, hb⟩ := Finset.mem_product.mp hmem
      refine Finset.mem_filter.mpr ⟨Finset.mem_product.mpr ⟨?_, ?_⟩, fun h => h hoverlap⟩
      · exact Finset.inr_mem_disjSum.mpr ha
      · exact Finset.inr_mem_disjSum.mpr hb
  · rintro (name | ⟨a, b⟩) - (name' | ⟨a', b'⟩) - hsame
    · exact congrArg Sum.inl (Sum.inl.inj (Prod.mk.inj hsame).1)
    · cases (Prod.mk.inj hsame).1
    · cases (Prod.mk.inj hsame).1
    · obtain ⟨ha, hb⟩ := Prod.mk.inj hsame
      exact congrArg Sum.inr (Prod.ext (Sum.inr.inj ha) (Sum.inr.inj hb))
  · rintro ⟨name | a, name' | b⟩ hpair
    all_goals obtain ⟨hmem, hclash⟩ := Finset.mem_filter.mp hpair
    all_goals obtain ⟨ha, hb⟩ := Finset.mem_product.mp hmem
    · obtain rfl : name = name' := not_not.mp hclash
      refine ⟨.inl name, Finset.inl_mem_disjSum.mpr (Finset.mem_inter.mpr ⟨?_, ?_⟩), rfl⟩
      · exact Finset.inl_mem_disjSum.mp ha
      · exact Finset.inl_mem_disjSum.mp hb
    · exact absurd trivial hclash
    · exact absurd trivial hclash
    · refine ⟨.inr (a, b), Finset.inr_mem_disjSum.mpr (Finset.mem_filter.mpr ⟨?_, ?_⟩), rfl⟩
      · exact Finset.mem_product.mpr
          ⟨Finset.inr_mem_disjSum.mp ha, Finset.inr_mem_disjSum.mp hb⟩
      · exact not_not.mp hclash

/-- **Two groups have occurrences that are apart** exactly when their pairs are more than their
clashes. -/
theorem exists_apart_iff :
    (∃ a ∈ group.occurrences imports strings, ∃ b ∈ other.occurrences imports strings,
      Apart a b) ↔ group.PairsRemain other imports strings := by
  rw [PrimitiveGroup.PairsRemain, ← card_not_apart, ← Finset.card_product,
    ← Finset.card_filter_add_card_filter_not (fun pair => Apart pair.1 pair.2)
      (s := group.occurrences imports strings ×ˢ other.occurrences imports strings),
    Nat.lt_add_left_iff_pos, Finset.card_pos]
  constructor
  · rintro ⟨a, ha, b, hb, hapart⟩
    exact ⟨(a, b), Finset.mem_filter.mpr ⟨Finset.mem_product.mpr ⟨ha, hb⟩, hapart⟩⟩
  · rintro ⟨⟨a, b⟩, hpair⟩
    obtain ⟨hmem, hapart⟩ := Finset.mem_filter.mp hpair
    obtain ⟨ha, hb⟩ := Finset.mem_product.mp hmem
    exact ⟨a, ha, b, hb, hapart⟩

/-- The clashes are the common imports, and the occurrences of the joined texts. -/
theorem clashes_eq {texts : List String} (htexts : group.clashTexts other = texts) :
    group.clashes other imports strings =
      (group.imported imports ∩ other.imported imports).card +
        (texts.map (countOf strings)).sum := by
  rw [PrimitiveGroup.clashes, joinCount_eq, joinCount_eq, ← Multiset.sum_add, ← Multiset.map_add,
    ← PrimitiveGroup.clashTexts, htexts, Multiset.map_coe, Multiset.sum_coe]

theorem clashes_eq_of_names {texts : List String} (htexts : group.clashTexts other = texts)
    (hnames : group.importNames ∩ other.importNames = ∅) :
    group.clashes other imports strings = (texts.map (countOf strings)).sum := by
  rw [clashes_eq htexts, PrimitiveGroup.imported, PrimitiveGroup.imported,
    ← Finset.filter_inter_distrib, hnames, Finset.filter_empty, Finset.card_empty, zero_add]

theorem sum_card_blockedBy :
    ∑ b ∈ other.occurrences imports strings, (group.blockedBy imports strings b).card =
      group.clashes other imports strings := by
  rw [← card_not_apart, Finset.card_filter, Finset.sum_product_right]
  exact Finset.sum_congr rfl fun b _ => Finset.card_filter _ _

section taken

variable (hone : ∀ b ∈ other.occurrences imports strings,
  (group.blockedBy imports strings b).card ≤ 1)
include hone

theorem taken_le (hb : b ∈ other.occurrences imports strings) :
    group.taken other imports strings ≤ (group.blockedBy imports strings b).card := by
  unfold PrimitiveGroup.taken
  split_ifs with h
  · exact Nat.zero_le _
  · by_contra hfree
    refine h ?_
    rw [← sum_card_blockedBy, Finset.card_eq_sum_ones]
    exact Finset.sum_lt_sum hone ⟨b, hb, by omega⟩

theorem exists_blockedBy_le (hne : (other.occurrences imports strings).Nonempty) :
    ∃ b ∈ other.occurrences imports strings,
      (group.blockedBy imports strings b).card ≤ group.taken other imports strings := by
  unfold PrimitiveGroup.taken
  split_ifs with h
  · rw [← sum_card_blockedBy, Finset.card_eq_sum_ones] at h
    obtain ⟨b, hb, hlt⟩ := Finset.exists_lt_of_sum_lt h
    exact ⟨b, hb, by omega⟩
  · obtain ⟨b, hb⟩ := hne
    exact ⟨b, hb, hone b hb⟩

end taken

theorem mem_blockedBy : a ∈ group.blockedBy imports strings b ↔
    a ∈ group.occurrences imports strings ∧ ¬Apart a b := Finset.mem_filter

theorem not_apart_self (ha : a ∈ group.occurrences imports strings) : ¬Apart a a := by
  rcases a with name | ⟨text, start⟩
  · exact fun h => h rfl
  · have hpos := length_pos_of_mem_written group.notMem_texts (Finset.inr_mem_disjSum.mp ha)
    exact fun h => h ⟨Nat.lt_add_of_pos_right hpos, Nat.lt_add_of_pos_right hpos⟩

theorem not_apart_inl {name : String} : ¬Apart a (.inl name) ↔ a = .inl name := by
  rcases a with other | a <;> simp [Apart]

theorem not_apart_inr {o : String × ℕ} : ¬Apart a (.inr o) ↔ ∃ x, a = .inr x ∧ Overlap x o := by
  rcases a with other | a <;> simp [Apart]

theorem nonempty_occurrences_iff {names texts : List String} (htexts : "" ∉ texts) :
    ((PrimitiveGroup.ofLists names texts htexts).occurrences imports strings).Nonempty ↔
      hasAny imports names ∨ containsAny strings texts := by
  unfold hasAny containsAny
  rw [List.any_eq_true, List.any_eq_true]
  constructor
  · rintro ⟨name | ⟨text, start⟩, hmem⟩
    · have hname := Finset.mem_filter.mp (Finset.inl_mem_disjSum.mp hmem)
      exact Or.inl ⟨name, List.mem_toFinset.mp hname.1, hname.2⟩
    · obtain ⟨htext, hstart⟩ := mem_written.mp (Finset.inr_mem_disjSum.mp hmem)
      have hlisted := List.mem_toFinset.mp htext
      exact Or.inr ⟨text, hlisted,
        (containsStr_iff_nonempty fun h => htexts (h ▸ hlisted)).mpr ⟨start, hstart⟩⟩
  · rintro (⟨name, hname, himported⟩ | ⟨text, htext, hcontains⟩)
    · refine ⟨.inl name, Finset.inl_mem_disjSum.mpr (Finset.mem_filter.mpr ⟨?_, himported⟩)⟩
      exact List.mem_toFinset.mpr hname
    · obtain ⟨start, hstart⟩ :=
        (containsStr_iff_nonempty fun h => htexts (h ▸ htext)).mp hcontains
      refine ⟨.inr (text, start), Finset.inr_mem_disjSum.mpr (mem_written.mpr ⟨?_, hstart⟩)⟩
      exact List.mem_toFinset.mpr htext

theorem nonempty_named_iff {names : List String} {hnames : "" ∉ names} :
    ((PrimitiveGroup.named names hnames).occurrences imports strings).Nonempty ↔
      hasPrimitive imports strings names := by
  rw [PrimitiveGroup.named, nonempty_occurrences_iff hnames]
  unfold hasAny containsAny hasPrimitive
  simp only [List.any_eq_true, Bool.or_eq_true, ← exists_or, ← and_or_left]

/-- A name that is imported or stands in the text has an occurrence. -/
theorem exists_occurrence_of_name {names : List String} {name : String} (hnames : "" ∉ names)
    (hname : name ∈ names) (h : imports.contains name || containsStr strings name) :
    ∃ a ∈ (PrimitiveGroup.named names hnames).occurrences imports strings,
      a.elim id Prod.fst = name := by
  rcases (Bool.or_eq_true _ _).mp h with himported | hcontains
  · refine ⟨.inl name, Finset.inl_mem_disjSum.mpr (Finset.mem_filter.mpr ⟨?_, himported⟩), rfl⟩
    exact List.mem_toFinset.mpr hname
  · obtain ⟨start, hstart⟩ :=
      (containsStr_iff_nonempty fun h => hnames (h ▸ hname)).mp hcontains
    refine ⟨.inr (name, start), Finset.inr_mem_disjSum.mpr (mem_written.mpr ⟨?_, hstart⟩), rfl⟩
    exact List.mem_toFinset.mpr hname

theorem backed_pair_iff :
    Backed imports strings [group, other] ↔
      ∃ a ∈ group.occurrences imports strings, ∃ b ∈ other.occurrences imports strings,
        Apart a b := by
  constructor
  · rintro ⟨_, hgroups, hapart⟩
    obtain _ | ⟨ha, _ | ⟨hb, _ | _⟩⟩ := hgroups
    exact ⟨_, ha, _, hb, List.pairwise_pair.mp hapart⟩
  · rintro ⟨a, ha, b, hb, hapart⟩
    exact ⟨[a, b], .cons ha (.cons hb .nil), List.pairwise_pair.mpr hapart⟩

theorem backed_triple_iff {third : PrimitiveGroup} :
    Backed imports strings [group, other, third] ↔
      ∃ a ∈ group.occurrences imports strings, ∃ b ∈ other.occurrences imports strings,
        ∃ c ∈ third.occurrences imports strings, Apart a b ∧ Apart a c ∧ Apart b c := by
  constructor
  · rintro ⟨_, hgroups, hapart⟩
    obtain _ | ⟨ha, _ | ⟨hb, _ | ⟨hc, _ | _⟩⟩⟩ := hgroups
    simp only [List.pairwise_cons, List.mem_cons, List.not_mem_nil, or_false, forall_eq_or_imp,
      forall_eq] at hapart
    exact ⟨_, ha, _, hb, _, hc, hapart.1.1, hapart.1.2, hapart.2.1⟩
  · rintro ⟨a, ha, b, hb, c, hc, hab, hac, hbc⟩
    exact ⟨[a, b, c], .cons ha (.cons hb (.cons hc .nil)), by simp [hab, hac, hbc]⟩

theorem backed_quadruple_iff {third fourth : PrimitiveGroup} :
    Backed imports strings [group, other, third, fourth] ↔
      ∃ a ∈ group.occurrences imports strings, ∃ b ∈ other.occurrences imports strings,
        ∃ c ∈ third.occurrences imports strings, ∃ d ∈ fourth.occurrences imports strings,
          (Apart a b ∧ Apart a c ∧ Apart a d) ∧ (Apart b c ∧ Apart b d) ∧ Apart c d := by
  constructor
  · rintro ⟨_, hgroups, hapart⟩
    obtain _ | ⟨ha, _ | ⟨hb, _ | ⟨hc, _ | ⟨hd, _ | _⟩⟩⟩⟩ := hgroups
    simp only [List.pairwise_cons, List.mem_cons, List.not_mem_nil, or_false, forall_eq_or_imp,
      forall_eq] at hapart
    exact ⟨_, ha, _, hb, _, hc, _, hd, hapart.1, hapart.2.1, hapart.2.2.1⟩
  · rintro ⟨a, ha, b, hb, c, hc, d, hd, ⟨hab, hac, had⟩, ⟨hbc, hbd⟩, hcd⟩
    exact ⟨[a, b, c, d], .cons ha (.cons hb (.cons hc (.cons hd .nil))),
      by simp [hab, hac, had, hbc, hbd, hcd]⟩

/-- No text stands for both groups, no two can be joined, and no name is in both. -/
def NeverClash (group other : PrimitiveGroup) : Prop :=
  group.importNames ∩ other.importNames = ∅ ∧ joins 0 group.texts other.texts = ∅ ∧
    joins 1 other.texts group.texts = ∅

instance : Decidable (NeverClash group other) := inferInstanceAs (Decidable (_ ∧ _))

/-- Occurrences of such groups are apart in every input. -/
theorem NeverClash.apart (h : NeverClash group other)
    (ha : a ∈ group.occurrences imports strings) (hb : b ∈ other.occurrences imports strings) :
    Apart a b := by
  obtain ⟨hnames, hforward, hbackward⟩ := h
  rcases a with name | a <;> rcases b with name' | b
  · rintro rfl
    have hname := (Finset.mem_filter.mp (Finset.inl_mem_disjSum.mp ha)).1
    have hname' := (Finset.mem_filter.mp (Finset.inl_mem_disjSum.mp hb)).1
    exact absurd (hnames ▸ Finset.mem_inter.mpr ⟨hname, hname'⟩) (Finset.notMem_empty name)
  · trivial
  · trivial
  · intro hoverlap
    rcases mem_joins_of_overlap (Finset.inr_mem_disjSum.mp ha) (Finset.inr_mem_disjSum.mp hb)
      group.notMem_texts other.notMem_texts hoverlap with ⟨-, hjoin⟩ | ⟨-, hjoin⟩
    · exact absurd (hforward ▸ hjoin) (Finset.notMem_empty _)
    · exact absurd (hbackward ▸ hjoin) (Finset.notMem_empty _)

end apart

/-! ## The groups of each category -/

namespace PrimitiveGroup

def keyboard : PrimitiveGroup := named keyboardNames (by decide)

def capture : PrimitiveGroup := named captureNames (by decide)

def write : PrimitiveGroup := named writeNames (by decide)

def allocate : PrimitiveGroup := named allocateNames (by decide)

def execute : PrimitiveGroup := named executeNames (by decide)

def browserArtifact : PrimitiveGroup := ofLists [] browserArtifacts (by decide)

def decryption : PrimitiveGroup :=
  ofLists ["cryptunprotectdata", "ncryptdecrypt"]
    ["cryptunprotectdata", "os_crypt.encrypted_key"] (by decide)

def database : PrimitiveGroup :=
  ofLists ["copyfilea", "copyfilew"] ["sqlite3_open", "sqlite3_prepare", "cookies.sqlite"]
    (by decide)

def lsassTarget : PrimitiveGroup := ofLists [] ["lsass"] (by decide)

def processDump : PrimitiveGroup :=
  ofLists ["minidumpwritedump"] ["minidumpwritedump", "comsvcs.dll", "procdump", "sekurlsa"]
    (by decide)

def inputControl : PrimitiveGroup := named (keyboardNames ++ inputNames) (by decide)

def network : PrimitiveGroup := named networkNames (by decide)

/-- The names of functions that open a connection all contain this one. -/
def connect : PrimitiveGroup := ofLists networkNames ["connect"] (by decide)

end PrimitiveGroup

open PrimitiveGroup

/-! ## The texts of two groups -/

/-- The texts that name what a browser stores and a database at once. -/
def browserTexts : List String :=
  ["\\mozilla\\firefox\\profilesqlite3_open", "\\mozilla\\firefox\\profilesqlite3_prepare",
    "network\\cookiesqlite3_open", "network\\cookiesqlite3_prepare", "network\\cookies.sqlite",
    "cookies.sqlite3_open", "cookies.sqlite3_prepare", "cookies.sqlite",
    "sqlite3_openetwork\\cookies"]

/-- The texts that name the target and a dump at once. -/
def dumpingTexts : List String := ["lsassekurlsa", "comsvcs.dllsass", "sekurlsass"]

/-- The texts that name the keyboard twice: each of its names, and two that are joined, in either
order. -/
def keyboardTexts : List String :=
  keyboardNames ++
    ["registerrawinputdevicesetwindowshookexa", "registerrawinputdevicesetwindowshookexw",
      "registerrawinputdevicesetwindowshookexa", "registerrawinputdevicesetwindowshookexw"]

/-- The texts that name screen capture and a connection at once. -/
def connectTexts : List String := ["getdconnect", "getwindowdconnect"]

/-- The text that names screen capture and input at once. -/
def inputTexts : List String := ["setwindowshookexacquirenextframe"]

/-- **Every pair of texts**: how those of two groups can be joined. -/
theorem clashTexts_groups :
    browserArtifact.clashTexts database = browserTexts ∧
      lsassTarget.clashTexts processDump = dumpingTexts ∧
      keyboard.clashTexts keyboard = keyboardTexts ∧
      capture.clashTexts connect = connectTexts ∧
      capture.clashTexts inputControl = inputTexts := by
  decide +kernel

/-- The groups that share nothing. -/
theorem neverClash_groups :
    (NeverClash write allocate ∧ NeverClash write execute ∧ NeverClash allocate execute) ∧
      (NeverClash browserArtifact decryption ∧ NeverClash decryption database) ∧
      NeverClash inputControl connect := by
  decide +kernel

/-- The names of screen capture share a part with themselves, with the start of `connect`, and with
the end of a name of input. -/
theorem joins_capture :
    ((∀ join ∈ joins 0 capture.texts capture.texts, join.1 = join.2.1 ∧ join.2.2 = 0) ∧
      joins 1 capture.texts capture.texts = ∅) ∧
      (joins 1 connect.texts capture.texts = ∅ ∧ joins 0 capture.texts inputControl.texts = ∅) ∧
      (∀ join ∈ joins 1 inputControl.texts capture.texts, join.2.2 + 1 = join.1.length) ∧
      ∀ join ∈ joins 0 capture.texts connect.texts,
        ∀ other ∈ joins 1 inputControl.texts capture.texts, join.1 ≠ other.2.1 := by
  decide +kernel

theorem importNames_groups :
    browserArtifact.importNames ∩ database.importNames = ∅ ∧
      lsassTarget.importNames ∩ processDump.importNames = ∅ ∧
      capture.importNames ∩ connect.importNames = ∅ ∧
      capture.importNames ∩ inputControl.importNames = ∅ := by
  decide

/-- The groups that a category requires. -/
def requiredGroups (category : String) : List PrimitiveGroup :=
  ([("keyboard_input_capture", [keyboard, keyboard]),
    ("screen_capture", [capture, capture]),
    ("process_injection", [write, allocate, execute]),
    ("browser_credential_access", [browserArtifact, decryption, database]),
    ("os_credential_dumping", [lsassTarget, processDump]),
    ("remote_control_stack", [capture, capture, inputControl, network])].lookup category).getD []

/-- Every capability that is reported is backed by different occurrences of its groups. -/
def Independent (imports : List String) (strings : String) : Prop :=
  ∀ capability ∈ (assess imports strings).capabilities,
    Backed imports strings (requiredGroups capability.category)

section categories

variable {imports : List String} {strings : String} {a b : PrimitiveOccurrence}

theorem clashes_browser : browserArtifact.clashes database imports strings =
    (browserTexts.map (countOf strings)).sum :=
  clashes_eq_of_names clashTexts_groups.1 importNames_groups.1

theorem clashes_dumping : lsassTarget.clashes processDump imports strings =
    (dumpingTexts.map (countOf strings)).sum :=
  clashes_eq_of_names clashTexts_groups.2.1 importNames_groups.2.1

/-- An occurrence of the keyboard clashes with itself. -/
theorem clashes_keyboard : keyboard.clashes keyboard imports strings =
    (keyboard.imported imports).card + (keyboardTexts.map (countOf strings)).sum := by
  rw [clashes_eq clashTexts_groups.2.2.1, Finset.inter_self]

theorem clashes_connect : capture.clashes connect imports strings =
    (connectTexts.map (countOf strings)).sum :=
  clashes_eq_of_names clashTexts_groups.2.2.2.1 importNames_groups.2.2.1

theorem clashes_input : capture.clashes inputControl imports strings =
    (inputTexts.map (countOf strings)).sum :=
  clashes_eq_of_names clashTexts_groups.2.2.2.2 importNames_groups.2.2.2

/-! ## Process injection and screen capture -/

/-- **Process injection is always backed.** -/
theorem backed_injection (h : injectsProcess imports strings) :
    Backed imports strings [write, allocate, execute] := by
  unfold injectsProcess at h
  rw [Bool.and_eq_true, Bool.and_eq_true] at h
  obtain ⟨⟨hwrite, hallocate⟩, hexecute⟩ := h
  obtain ⟨a, ha⟩ := nonempty_named_iff.mpr hwrite
  obtain ⟨b, hb⟩ := nonempty_named_iff.mpr hallocate
  obtain ⟨c, hc⟩ := nonempty_named_iff.mpr hexecute
  obtain ⟨hwriteAllocate, hwriteExecute, hallocateExecute⟩ := neverClash_groups.1
  exact backed_triple_iff.mpr ⟨a, ha, b, hb, c, hc, hwriteAllocate.apart ha hb,
    hwriteExecute.apart ha hc, hallocateExecute.apart hb hc⟩

/-- Different occurrences of screen capture are apart. -/
theorem apart_of_capture (ha : a ∈ capture.occurrences imports strings)
    (hb : b ∈ capture.occurrences imports strings) (hne : a ≠ b) : Apart a b := by
  rcases a with name | ⟨p, s⟩ <;> rcases b with name' | ⟨q, t⟩
  · exact fun h => hne (congrArg Sum.inl h)
  · trivial
  · trivial
  · intro hoverlap
    rcases mem_joins_of_overlap (Finset.inr_mem_disjSum.mp ha) (Finset.inr_mem_disjSum.mp hb)
      capture.notMem_texts capture.notMem_texts hoverlap with ⟨hle, hjoin⟩ | ⟨-, hjoin⟩
    · obtain ⟨hname, hoffset⟩ := joins_capture.1.1 _ hjoin
      dsimp only at hle hname hoffset
      refine hne ?_
      rw [hname, show s = t by omega]
    · rw [joins_capture.1.2] at hjoin
      exact absurd hjoin (Finset.notMem_empty _)

/-- **Screen capture is always backed.** -/
theorem backed_capture (h : capturesScreen imports strings) :
    Backed imports strings [capture, capture] := by
  unfold capturesScreen primitiveCount at h
  have hnodup : captureNames.Nodup := by decide
  rw [decide_eq_true_eq, ← List.toFinset_card_of_nodup (hnodup.filter _)] at h
  obtain ⟨p, hp, q, hq, hne⟩ := Finset.one_lt_card.mp h
  rw [List.mem_toFinset, List.mem_filter] at hp hq
  obtain ⟨a, ha, rfl⟩ := exists_occurrence_of_name (by decide) hp.1 hp.2
  obtain ⟨b, hb, rfl⟩ := exists_occurrence_of_name (by decide) hq.1 hq.2
  refine backed_pair_iff.mpr ⟨a, ha, b, hb, apart_of_capture ha hb ?_⟩
  rintro rfl
  exact hne rfl

/-! ## Remote control -/

/-- An occurrence of a network name contains one of `connect`. -/
theorem exists_connect (hb : b ∈ network.occurrences imports strings) :
    ∃ c ∈ connect.occurrences imports strings,
      ∀ a : PrimitiveOccurrence, Apart a b → Apart a c := by
  rcases b with name | ⟨name, start⟩
  · exact ⟨.inl name, Finset.inl_mem_disjSum.mpr (Finset.inl_mem_disjSum.mp hb), fun _ h => h⟩
  · obtain ⟨hname, hstart⟩ := mem_written.mp (Finset.inr_mem_disjSum.mp hb)
    have hinner : ∀ name ∈ network.texts, name ≠ "" ∧ (positions name "connect").Nonempty := by
      decide
    obtain ⟨hne, offset, hoffset⟩ := hinner name hname
    refine ⟨.inr ("connect", start + offset), ?_, ?_⟩
    · have hconnect : "connect" ∈ connect.texts := by decide
      refine Finset.inr_mem_disjSum.mpr (mem_written.mpr ⟨hconnect, ?_⟩)
      exact add_mem_positions hstart hoffset hne (show "connect" ≠ "" by decide)
    · rintro (other | other) hapart
      · trivial
      · exact fun hoverlap =>
          hapart (hoverlap.of_inner (show "connect" ≠ "" by decide) hoffset)

theorem mem_network_of_connect (hb : b ∈ connect.occurrences imports strings) :
    b ∈ network.occurrences imports strings := by
  rcases b with name | ⟨name, start⟩
  · exact Finset.inl_mem_disjSum.mpr (Finset.inl_mem_disjSum.mp hb)
  · obtain ⟨hname, hstart⟩ := mem_written.mp (Finset.inr_mem_disjSum.mp hb)
    have hsub : connect.texts ⊆ network.texts := by decide
    exact Finset.inr_mem_disjSum.mpr (mem_written.mpr ⟨hsub hname, hstart⟩)

/-- An occurrence takes one of screen capture at most if those that share a part with it share one
with each other. -/
theorem card_blockedBy_capture
    (hmeet : ∀ o, b = .inr o → ∀ x ∈ written strings capture.texts,
      ∀ y ∈ written strings capture.texts, Overlap x o → Overlap y o → Overlap x y) :
    (capture.blockedBy imports strings b).card ≤ 1 := by
  refine Finset.card_le_one.mpr fun a₁ h₁ a₂ h₂ => ?_
  obtain ⟨hmem₁, hclash₁⟩ := mem_blockedBy.mp h₁
  obtain ⟨hmem₂, hclash₂⟩ := mem_blockedBy.mp h₂
  rcases b with name | o
  · rw [not_apart_inl.mp hclash₁, not_apart_inl.mp hclash₂]
  · obtain ⟨x, rfl, hx⟩ := not_apart_inr.mp hclash₁
    obtain ⟨y, rfl, hy⟩ := not_apart_inr.mp hclash₂
    by_contra hne
    refine apart_of_capture hmem₁ hmem₂ hne (hmeet o rfl x ?_ y ?_ hx hy)
    · exact Finset.inr_mem_disjSum.mp hmem₁
    · exact Finset.inr_mem_disjSum.mp hmem₂

/-- What shares a part with `connect` contains its first character. -/
theorem lt_of_clash_connect {x o : String × ℕ} (hx : x ∈ written strings capture.texts)
    (ho : o ∈ written strings connect.texts) (h : Overlap x o) :
    x.2 ≤ o.2 ∧ (x.1, o.1, o.2 - x.2) ∈ joins 0 capture.texts connect.texts := by
  rcases mem_joins_of_overlap hx ho capture.notMem_texts connect.notMem_texts h with
    h | ⟨-, hjoin⟩
  · exact h
  · rw [joins_capture.2.1.1] at hjoin
    exact absurd hjoin (Finset.notMem_empty _)

/-- What shares a part with a name of input begins with its last character. -/
theorem eq_of_clash_input {x o : String × ℕ} (hx : x ∈ written strings capture.texts)
    (ho : o ∈ written strings inputControl.texts) (h : Overlap x o) :
    x.2 + 1 = o.2 + o.1.length ∧
      (o.1, x.1, x.2 - o.2) ∈ joins 1 inputControl.texts capture.texts := by
  rcases mem_joins_of_overlap hx ho capture.notMem_texts inputControl.notMem_texts h with
    ⟨-, hjoin⟩ | ⟨hlt, hjoin⟩
  · rw [joins_capture.2.1.2] at hjoin
    exact absurd hjoin (Finset.notMem_empty _)
  · have hoffset := joins_capture.2.2.1 _ hjoin
    dsimp only at hoffset
    exact ⟨by omega, hjoin⟩

theorem card_blockedBy_connect (hb : b ∈ connect.occurrences imports strings) :
    (capture.blockedBy imports strings b).card ≤ 1 := by
  refine card_blockedBy_capture ?_
  rintro o rfl x hx y hy hxo hyo
  have ho := Finset.inr_mem_disjSum.mp hb
  have hxle := (lt_of_clash_connect hx ho hxo).1
  have hyle := (lt_of_clash_connect hy ho hyo).1
  exact ⟨hxle.trans_lt hyo.2, hyle.trans_lt hxo.2⟩

theorem card_blockedBy_input (hb : b ∈ inputControl.occurrences imports strings) :
    (capture.blockedBy imports strings b).card ≤ 1 := by
  refine card_blockedBy_capture ?_
  rintro o rfl x hx y hy hxo hyo
  have ho := Finset.inr_mem_disjSum.mp hb
  have hxeq := (eq_of_clash_input hx ho hxo).1
  have hyeq := (eq_of_clash_input hy ho hyo).1
  have hxpos := length_pos_of_mem_written capture.notMem_texts hx
  have hypos := length_pos_of_mem_written capture.notMem_texts hy
  exact ⟨by omega, by omega⟩

/-- No occurrence of screen capture is taken by an input and by a connection. -/
theorem disjoint_blockedBy {c : PrimitiveOccurrence}
    (hb : b ∈ inputControl.occurrences imports strings)
    (hc : c ∈ connect.occurrences imports strings) :
    Disjoint (capture.blockedBy imports strings b) (capture.blockedBy imports strings c) := by
  refine Finset.disjoint_left.mpr fun a hab hac => ?_
  obtain ⟨ha, hinput⟩ := mem_blockedBy.mp hab
  obtain ⟨-, hconnect⟩ := mem_blockedBy.mp hac
  rcases b with name | o
  · obtain rfl := not_apart_inl.mp hinput
    have hcapture := (Finset.mem_filter.mp (Finset.inl_mem_disjSum.mp ha)).1
    have hname := (Finset.mem_filter.mp (Finset.inl_mem_disjSum.mp hb)).1
    have hboth := Finset.mem_inter.mpr ⟨hcapture, hname⟩
    rw [importNames_groups.2.2.2] at hboth
    exact Finset.notMem_empty _ hboth
  · obtain ⟨x, rfl, hxo⟩ := not_apart_inr.mp hinput
    rcases c with name | n
    · exact Sum.inr_ne_inl (not_apart_inl.mp hconnect)
    · obtain ⟨y, hsame, hyn⟩ := not_apart_inr.mp hconnect
      obtain rfl := Sum.inr.inj hsame
      have hx := Finset.inr_mem_disjSum.mp ha
      have hinput := (eq_of_clash_input hx (Finset.inr_mem_disjSum.mp hb) hxo).2
      have hconnect := (lt_of_clash_connect hx (Finset.inr_mem_disjSum.mp hc) hyn).2
      exact joins_capture.2.2.2 _ hconnect _ hinput rfl

/-- **When remote control is backed**: two occurrences of screen capture are left beside those that
every input and every connection takes. -/
theorem backed_remote_iff (hinput : (inputControl.occurrences imports strings).Nonempty)
    (hconnect : (connect.occurrences imports strings).Nonempty) :
    Backed imports strings [capture, capture, inputControl, network] ↔
      2 + capture.taken inputControl imports strings + capture.taken connect imports strings ≤
        (capture.occurrences imports strings).card := by
  rw [backed_quadruple_iff]
  constructor
  · rintro ⟨a, ha, a', ha', b, hb, n, hn, ⟨haa', hab, han⟩, ⟨ha'b, ha'n⟩, hbn⟩
    obtain ⟨c, hc, htransfer⟩ := exists_connect hn
    have hne : a ≠ a' := by
      rintro rfl
      exact not_apart_self ha haa'
    have hunion : {a, a'} ∪ (capture.blockedBy imports strings b ∪
        capture.blockedBy imports strings c) ⊆ capture.occurrences imports strings := by
      refine Finset.union_subset ?_ (Finset.union_subset (Finset.filter_subset _ _) ?_)
      · exact Finset.insert_subset ha (Finset.singleton_subset_iff.mpr ha')
      · exact Finset.filter_subset _ _
    have hcard := Finset.card_le_card hunion
    rw [Finset.card_union_of_disjoint, Finset.card_union_of_disjoint (disjoint_blockedBy hb hc),
      Finset.card_pair hne] at hcard
    · have hb' := taken_le (fun _ => card_blockedBy_input) hb
      have hc' := taken_le (fun _ => card_blockedBy_connect) hc
      omega
    · refine Finset.disjoint_left.mpr fun x hx hblocked => ?_
      have hfree : Apart x b ∧ Apart x c := by
        rcases Finset.mem_insert.mp hx with rfl | hx
        · exact ⟨hab, htransfer _ han⟩
        · obtain rfl := Finset.mem_singleton.mp hx
          exact ⟨ha'b, htransfer _ ha'n⟩
      rcases Finset.mem_union.mp hblocked with hblocked | hblocked
      · exact (mem_blockedBy.mp hblocked).2 hfree.1
      · exact (mem_blockedBy.mp hblocked).2 hfree.2
  · intro hcard
    obtain ⟨b, hb, hblocked⟩ := exists_blockedBy_le (fun _ => card_blockedBy_input) hinput
    obtain ⟨c, hc, hblocked'⟩ := exists_blockedBy_le (fun _ => card_blockedBy_connect) hconnect
    have hunion := Finset.card_union_le (capture.blockedBy imports strings b)
      (capture.blockedBy imports strings c)
    have hleft := Finset.le_card_sdiff (capture.blockedBy imports strings b ∪
      capture.blockedBy imports strings c) (capture.occurrences imports strings)
    obtain ⟨a, ha, a', ha', hne⟩ := Finset.one_lt_card.mp
      (by omega : 1 < (capture.occurrences imports strings \
        (capture.blockedBy imports strings b ∪ capture.blockedBy imports strings c)).card)
    have hfree {x : PrimitiveOccurrence} (hx : x ∈ capture.occurrences imports strings \
        (capture.blockedBy imports strings b ∪ capture.blockedBy imports strings c)) :
        x ∈ capture.occurrences imports strings ∧ Apart x b ∧ Apart x c := by
      obtain ⟨hmem, hnot⟩ := Finset.mem_sdiff.mp hx
      rw [Finset.mem_union, not_or, mem_blockedBy, mem_blockedBy] at hnot
      exact ⟨hmem, not_not.mp fun h => hnot.1 ⟨hmem, h⟩, not_not.mp fun h => hnot.2 ⟨hmem, h⟩⟩
    obtain ⟨ha, hab, hac⟩ := hfree ha
    obtain ⟨ha', ha'b, ha'c⟩ := hfree ha'
    exact ⟨a, ha, a', ha', b, hb, c, mem_network_of_connect hc,
      ⟨apart_of_capture ha ha' hne, hab, hac⟩, ⟨ha'b, ha'c⟩, neverClash_groups.2.2.apart hb hc⟩

/-! ## Every category -/

/-- **Two occurrences of the keyboard.** -/
theorem backed_keyboard_iff :
    Backed imports strings [keyboard, keyboard] ↔
      keyboard.PairsRemain keyboard imports strings := by
  rw [backed_pair_iff, exists_apart_iff]

/-- **A target and a dump.** -/
theorem backed_dumping_iff :
    Backed imports strings [lsassTarget, processDump] ↔
      lsassTarget.PairsRemain processDump imports strings := by
  rw [backed_pair_iff, exists_apart_iff]

/-- **An artifact, a decryption and a database.** No text is both a decryption and one of the other
two. -/
theorem backed_browser_iff (h : decryptsSecrets imports strings) :
    Backed imports strings [browserArtifact, decryption, database] ↔
      browserArtifact.PairsRemain database imports strings := by
  obtain ⟨hartifact, hdatabase⟩ := neverClash_groups.2.1
  unfold decryptsSecrets at h
  rw [Bool.or_eq_true, ← nonempty_occurrences_iff (by decide)] at h
  obtain ⟨b, hb⟩ := h
  rw [backed_triple_iff, ← exists_apart_iff]
  constructor
  · rintro ⟨a, ha, -, -, c, hc, -, hapart, -⟩
    exact ⟨a, ha, c, hc, hapart⟩
  · rintro ⟨a, ha, c, hc, hapart⟩
    exact ⟨a, ha, b, hb, c, hc, hartifact.apart ha hb, hapart, hdatabase.apart hb hc⟩

/-- What handles the input has an occurrence. -/
theorem nonempty_inputControl (h : handlesInput imports strings) :
    (inputControl.occurrences imports strings).Nonempty := by
  refine nonempty_named_iff.mpr ?_
  unfold handlesInput primitiveCount at h
  unfold hasPrimitive at h ⊢
  rw [List.any_append, Bool.or_eq_true]
  rw [Bool.or_eq_true, decide_eq_true_eq, List.length_pos_iff_exists_mem] at h
  refine h.imp_left ?_
  rintro ⟨name, hname⟩
  exact List.any_eq_true.mpr ⟨name, List.mem_filter.mp hname⟩

/-- A connection has an occurrence. -/
theorem nonempty_connect (h : hasPrimitive imports strings networkNames) :
    (connect.occurrences imports strings).Nonempty := by
  obtain ⟨b, hb⟩ := nonempty_named_iff.mpr h
  obtain ⟨c, hc, -⟩ := exists_connect hb
  exact ⟨c, hc⟩

theorem decryptsSecrets_of_accessesBrowser (h : accessesBrowser imports strings) :
    decryptsSecrets imports strings := by
  unfold accessesBrowser at h
  rw [Bool.and_eq_true, Bool.and_eq_true] at h
  exact h.1.2

theorem nonempty_of_controlsRemotely (h : controlsRemotely imports strings) :
    (inputControl.occurrences imports strings).Nonempty ∧
      (connect.occurrences imports strings).Nonempty := by
  unfold controlsRemotely at h
  rw [Bool.and_eq_true, Bool.and_eq_true] at h
  exact ⟨nonempty_inputControl h.1.2, nonempty_connect h.2⟩

/-- **When every capability that is reported is backed by different occurrences of its groups.**
Process injection and screen capture are always. -/
theorem independent_iff (imports : List String) (strings : String) :
    Independent imports strings ↔
      (capturesKeyboard imports strings → keyboard.PairsRemain keyboard imports strings) ∧
      (accessesBrowser imports strings → browserArtifact.PairsRemain database imports strings) ∧
      (dumpsCredentials imports strings → lsassTarget.PairsRemain processDump imports strings) ∧
      (controlsRemotely imports strings →
        2 + capture.taken inputControl imports strings + capture.taken connect imports strings ≤
          (capture.occurrences imports strings).card) := by
  have hrules : Independent imports strings ↔ ∀ rule ∈ capabilityRules imports strings,
      rule.holds → Backed imports strings (requiredGroups rule.capability.category) := by
    unfold Independent
    simp only [mem_capabilities]
    constructor
    · exact fun h rule hrule hholds => h _ ⟨rule, hrule, hholds, rfl⟩
    · rintro h - ⟨rule, hrule, hholds, rfl⟩
      exact h rule hrule hholds
  rw [hrules]
  unfold capabilityRules
  simp only [List.forall_mem_cons]
  constructor
  · rintro ⟨hkeyboard, -, -, hbrowser, hdumping, hremote, -⟩
    refine ⟨fun h => backed_keyboard_iff.mp (hkeyboard h), fun h => ?_,
      fun h => backed_dumping_iff.mp (hdumping h), fun h => ?_⟩
    · exact (backed_browser_iff (decryptsSecrets_of_accessesBrowser h)).mp (hbrowser h)
    · obtain ⟨hinput, hconnect⟩ := nonempty_of_controlsRemotely h
      exact (backed_remote_iff hinput hconnect).mp (hremote h)
  · rintro ⟨hkeyboard, hbrowser, hdumping, hremote⟩
    refine ⟨fun h => backed_keyboard_iff.mpr (hkeyboard h), backed_capture, backed_injection,
      fun h => ?_, fun h => backed_dumping_iff.mpr (hdumping h), fun h => ?_, ?_⟩
    · exact (backed_browser_iff (decryptsSecrets_of_accessesBrowser h)).mpr (hbrowser h)
    · obtain ⟨hinput, hconnect⟩ := nonempty_of_controlsRemotely h
      exact (backed_remote_iff hinput hconnect).mpr (hremote h)
    · exact fun _ hrule => absurd hrule List.not_mem_nil

/-- One file name is both what a browser stores and what reads a database. -/
theorem cookies_not_independent :
    ((assess [] "cookies.sqlite cryptunprotectdata").capabilities.map (·.category) =
        ["browser_credential_access"] ∧
      browserArtifact.occurrences [] "cookies.sqlite cryptunprotectdata" =
        {.inr ("cookies.sqlite", 0)} ∧
      database.occurrences [] "cookies.sqlite cryptunprotectdata" =
        {.inr ("cookies.sqlite", 0)}) ∧
      ¬Independent [] "cookies.sqlite cryptunprotectdata" := by
  have hreported : (assess [] "cookies.sqlite cryptunprotectdata").capabilities.map (·.category) =
        ["browser_credential_access"] ∧
      browserArtifact.occurrences [] "cookies.sqlite cryptunprotectdata" =
        {.inr ("cookies.sqlite", 0)} ∧
      database.occurrences [] "cookies.sqlite cryptunprotectdata" =
        {.inr ("cookies.sqlite", 0)} := by
    decide +kernel
  refine ⟨hreported, fun hindependent => ?_⟩
  obtain ⟨hcategories, hartifact, hdatabase⟩ := hreported
  have hcategory := List.mem_singleton_self "browser_credential_access"
  rw [← hcategories, List.mem_map] at hcategory
  obtain ⟨capability, hcapability, hcategory⟩ := hcategory
  have hbacked := hindependent capability hcapability
  rw [hcategory] at hbacked
  have hgroups : requiredGroups "browser_credential_access" =
      [browserArtifact, decryption, database] := rfl
  rw [hgroups, backed_triple_iff, hartifact, hdatabase] at hbacked
  obtain ⟨a, ha, -, -, c, hc, -, hapart, -⟩ := hbacked
  obtain rfl := Finset.mem_singleton.mp ha
  obtain rfl := Finset.mem_singleton.mp hc
  exact absurd hapart (by decide)

end categories

end OpenGuard.Detection
