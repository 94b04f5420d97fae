import Mathlib.Algebra.BigOperators.Group.Finset.Basic
import Mathlib.Algebra.Order.BigOperators.Group.Finset
import OpenGuard.Lib.Text

/-!
# Occurrences of patterns in a text

Where a pattern stands in a text, and when two occurrences share a part of it. Two patterns that
share a part stand where one joined text does, so the pairs of occurrences that share a part are
counted by counting texts.

* `containsStr_iff`: what the test for a substring tests.
* `positions`, `countOf`: where a pattern stands, and how often.
* `offsets`, `joined`: how far two patterns can share a part, and the text that they make;
  `mem_positions_joined`, `mem_offsets_of_lt`.
* `card_overlap`: **the pairs of occurrences that share a part are as many as joined texts.**
-/

namespace OpenGuard.Lib

/-- A string contains a pattern when the characters of the pattern stand somewhere in it. -/
theorem containsStr_iff {s pattern : String} :
    containsStr s pattern ↔ pattern.toList <:+: s.toList := by
  unfold containsStr
  rw [List.any_eq_true]
  constructor
  · rintro ⟨tail, htail, hpattern⟩
    exact (List.isPrefixOf_iff_prefix.mp hpattern).isInfix.trans
      ((List.mem_tails _ _).mp htail).isInfix
  · rintro ⟨before, after, h⟩
    refine ⟨pattern.toList ++ after, (List.mem_tails _ _).mpr ⟨before, ?_⟩, ?_⟩
    · rw [← List.append_assoc, h]
    · exact List.isPrefixOf_iff_prefix.mpr (List.prefix_append _ _)

/-- What a part of a string contains, the string contains. -/
theorem containsStr_trans {s t pattern : String} (hst : containsStr t s)
    (hpattern : containsStr s pattern) : containsStr t pattern :=
  containsStr_iff.mpr ((containsStr_iff.mp hpattern).trans (containsStr_iff.mp hst))

/-! ## Places -/

/-- The places where a pattern stands in a text. -/
def positions (text pattern : String) : Finset ℕ :=
  (Finset.range (text.length + 1)).filter fun start =>
    pattern.toList.isPrefixOf (text.toList.drop start)

/-- How often a pattern stands in a text. -/
def countOf (text pattern : String) : ℕ := (positions text pattern).card

/-- How far after the first pattern the second one may start so that they share a part. -/
def offsets (first second : String) : Finset ℕ :=
  (Finset.range first.length).filter fun offset =>
    (first.toList.drop offset).isPrefixOf second.toList ||
      second.toList.isPrefixOf (first.toList.drop offset)

/-- The text of both patterns, the second of which starts so far after the first. -/
def joined (first second : String) (offset : ℕ) : String :=
  if second.length ≤ first.length - offset then first
  else String.ofList (first.toList.take offset ++ second.toList)

section places

variable {text pattern first second : String} {start other offset : ℕ}

theorem mem_positions (hne : pattern ≠ "") :
    start ∈ positions text pattern ↔ pattern.toList <+: text.toList.drop start := by
  rw [positions, Finset.mem_filter, List.isPrefixOf_iff_prefix, Finset.mem_range,
    and_iff_right_iff_imp]
  intro hstands
  by_contra hbeyond
  rw [List.drop_eq_nil_iff.mpr (by rw [String.length_toList]; omega), List.prefix_nil,
    String.toList_eq_nil_iff] at hstands
  exact hne hstands

theorem containsStr_iff_nonempty (hne : pattern ≠ "") :
    containsStr text pattern ↔ (positions text pattern).Nonempty := by
  rw [containsStr_iff]
  constructor
  · rintro ⟨before, after, h⟩
    refine ⟨before.length, (mem_positions hne).mpr ⟨after, ?_⟩⟩
    rw [← h, List.append_assoc, List.drop_left]
  · rintro ⟨start, hstart⟩
    exact ((mem_positions hne).mp hstart).isInfix.trans (List.drop_suffix _ _).isInfix

theorem mem_offsets :
    offset ∈ offsets first second ↔ offset < first.length ∧
      (first.toList.drop offset <+: second.toList ∨
        second.toList <+: first.toList.drop offset) := by
  rw [offsets, Finset.mem_filter, Finset.mem_range, Bool.or_eq_true, List.isPrefixOf_iff_prefix,
    List.isPrefixOf_iff_prefix]

/-- Patterns that share a part do so at one of their offsets. -/
theorem mem_offsets_of_lt (hfirst : start ∈ positions text first)
    (hsecond : other ∈ positions text second) (hne : second ≠ "") (hle : start ≤ other)
    (hlt : other < start + first.length) : other - start ∈ offsets first second := by
  have hnonempty : first ≠ "" := by
    rintro rfl
    simp at hlt
    omega
  have hfront := ((mem_positions hnonempty).mp hfirst).drop (other - start)
  rw [List.drop_drop, Nat.add_sub_cancel' hle] at hfront
  refine mem_offsets.mpr ⟨by omega, ?_⟩
  exact List.prefix_or_prefix_of_prefix hfront ((mem_positions hne).mp hsecond)

/-- **Two patterns that share a part stand where their joined text does.** -/
theorem mem_positions_joined (hoffset : offset ∈ offsets first second) (hne : second ≠ "") :
    start ∈ positions text (joined first second offset) ↔
      start ∈ positions text first ∧ start + offset ∈ positions text second := by
  obtain ⟨hlt, hshared⟩ := mem_offsets.mp hoffset
  have hfirst : first ≠ "" := by
    rintro rfl
    simp at hlt
  have hlength : offset < first.toList.length := by rwa [String.length_toList]
  have hsplit := List.take_append_drop offset first.toList
  rw [mem_positions hfirst, mem_positions hne, ← List.drop_drop]
  unfold joined
  split_ifs with hshort
  · -- the second pattern is a part of the first
    rw [mem_positions hfirst]
    refine (and_iff_left_of_imp fun hstands => ?_).symm
    have hinner : second.toList <+: first.toList.drop offset := by
      rcases hshared with hlonger | hinner
      · have hsame := hlonger.eq_of_length_le (by
          rwa [List.length_drop, String.length_toList, String.length_toList])
        rw [hsame]
      · exact hinner
    exact hinner.trans (hstands.drop offset)
  · have houter : first.toList.drop offset <+: second.toList := by
      refine hshared.resolve_right fun hinner => hshort ?_
      have hle := hinner.length_le
      rwa [List.length_drop, String.length_toList, String.length_toList] at hle
    have hjoined : String.ofList (first.toList.take offset ++ second.toList) ≠ "" := by
      intro hempty
      have hnil := congrArg String.toList hempty
      rw [String.toList_ofList] at hnil
      exact hne (String.toList_eq_nil_iff.mp (List.append_eq_nil_iff.mp hnil).2)
    rw [mem_positions hjoined, String.toList_ofList]
    constructor
    · intro hstands
      refine ⟨?_, ?_⟩
      · rw [← hsplit]
        exact ((List.prefix_append_right_inj _).mpr houter).trans hstands
      · have hdrop := hstands.drop offset
        rwa [List.drop_left' (by simpa using hlength.le)] at hdrop
    · rintro ⟨⟨rest, hrest⟩, hsecond⟩
      rw [← hrest, List.drop_append_of_le_length hlength.le] at hsecond
      rw [← hrest]
      conv_rhs => rw [← hsplit]
      rw [List.append_assoc]
      exact (List.prefix_append_right_inj _).mpr hsecond

/-- A pattern that stands in another one stands wherever the other one does. -/
theorem add_mem_positions {inner : String} (hstart : start ∈ positions text pattern)
    (hinner : offset ∈ positions pattern inner) (hpattern : pattern ≠ "") (hne : inner ≠ "") :
    start + offset ∈ positions text inner := by
  rw [mem_positions hpattern] at hstart
  rw [mem_positions hne] at hinner ⊢
  rw [← List.drop_drop]
  exact hinner.trans (hstart.drop offset)

theorem add_length_le (hne : pattern ≠ "") (hstart : start ∈ positions text pattern) :
    start + pattern.length ≤ text.length := by
  have hle := ((mem_positions hne).mp hstart).length_le
  have hpos := Nat.pos_of_ne_zero fun hzero => hne (String.length_eq_zero_iff.mp hzero)
  rw [List.length_drop, String.length_toList, String.length_toList] at hle
  omega

end places

/-! ## Occurrences that share a part -/

/-- The occurrences of some patterns, each with its place. -/
def written (text : String) (patterns : Finset String) : Finset (String × ℕ) :=
  patterns.biUnion fun pattern => (positions text pattern).image (pattern, ·)

/-- Two occurrences share a part of the text. -/
def Overlap (first second : String × ℕ) : Prop :=
  first.2 < second.2 + second.1.length ∧ second.2 < first.2 + first.1.length

instance (first second : String × ℕ) : Decidable (Overlap first second) :=
  inferInstanceAs (Decidable (_ ∧ _))

/-- The ways in which a pattern of the first kind and then one of the second, at least so far after
it, share a part. -/
def joins (lowest : ℕ) (first second : Finset String) : Finset (String × String × ℕ) :=
  first.biUnion fun p => second.biUnion fun q =>
    ((offsets p q).filter (lowest ≤ ·)).image fun offset => (p, q, offset)

/-- The texts that two kinds of patterns make together. -/
def joinedTexts (lowest : ℕ) (first second : Finset String) : Multiset String :=
  (joins lowest first second).val.map fun join => joined join.1 join.2.1 join.2.2

/-- How often the joined texts of two kinds of patterns stand in a text. -/
def joinCount (text : String) (lowest : ℕ) (first second : Finset String) : ℕ :=
  ∑ join ∈ joins lowest first second, countOf text (joined join.1 join.2.1 join.2.2)

section overlaps

variable {text p q : String} {first second : Finset String} {start offset lowest : ℕ}
  {a b : String × ℕ}

theorem mem_written : a ∈ written text first ↔ a.1 ∈ first ∧ a.2 ∈ positions text a.1 := by
  obtain ⟨p, start⟩ := a
  simp [written]

theorem length_pos_of_mem_written (hfirst : "" ∉ first) (ha : a ∈ written text first) :
    0 < a.1.length := by
  refine Nat.pos_of_ne_zero fun hzero => hfirst ?_
  rw [← String.length_eq_zero_iff.mp hzero]
  exact (mem_written.mp ha).1

/-- An occurrence that shares nothing with another one shares nothing with a part of it. -/
theorem Overlap.of_inner {inner : String} (hne : inner ≠ "") (hinner : offset ∈ positions p inner)
    (h : Overlap a (inner, start + offset)) : Overlap a (p, start) := by
  have hlength := add_length_le hne hinner
  obtain ⟨hbefore, hafter⟩ := h
  exact ⟨show a.2 < start + p.length by dsimp only at hbefore; omega,
    show start < a.2 + a.1.length by dsimp only at hafter; omega⟩

theorem mem_joins :
    (p, q, offset) ∈ joins lowest first second ↔
      p ∈ first ∧ q ∈ second ∧ offset ∈ offsets p q ∧ lowest ≤ offset := by
  simp [joins, and_assoc]

/-- Occurrences that share a part do so in one of the ways for their patterns. -/
theorem mem_joins_of_overlap (ha : a ∈ written text first) (hb : b ∈ written text second)
    (hfirst : "" ∉ first) (hsecond : "" ∉ second) (h : Overlap a b) :
    a.2 ≤ b.2 ∧ (a.1, b.1, b.2 - a.2) ∈ joins 0 first second ∨
      b.2 < a.2 ∧ (b.1, a.1, a.2 - b.2) ∈ joins 1 second first := by
  obtain ⟨hp, hs⟩ := mem_written.mp ha
  obtain ⟨hq, ht⟩ := mem_written.mp hb
  rcases Nat.lt_or_ge b.2 a.2 with hlt | hle
  · refine Or.inr ⟨hlt, mem_joins.mpr ⟨hq, hp, ?_, by omega⟩⟩
    exact mem_offsets_of_lt ht hs (fun hnone => hfirst (hnone ▸ hp)) hlt.le h.1
  · refine Or.inl ⟨hle, mem_joins.mpr ⟨hp, hq, ?_, Nat.zero_le _⟩⟩
    exact mem_offsets_of_lt hs ht (fun hnone => hsecond (hnone ▸ hq)) hle h.2

theorem joinCount_eq (text : String) (lowest : ℕ) (first second : Finset String) :
    joinCount text lowest first second =
      ((joinedTexts lowest first second).map (countOf text)).sum := by
  rw [joinCount, joinedTexts, Multiset.map_map]
  rfl

/-- Pairs in which the second occurrence follows the first are as many as joined texts. -/
theorem card_following (hsecond : "" ∉ second) (text : String) (lowest : ℕ)
    (first : Finset String) :
    ((written text first ×ˢ written text second).filter fun pair =>
      pair.1.2 + lowest ≤ pair.2.2 ∧ pair.2.2 < pair.1.2 + pair.1.1.length).card =
        joinCount text lowest first second := by
  have hjoin : ∀ pair ∈ (written text first ×ˢ written text second).filter fun pair =>
      pair.1.2 + lowest ≤ pair.2.2 ∧ pair.2.2 < pair.1.2 + pair.1.1.length,
      (pair.1.1, pair.2.1, pair.2.2 - pair.1.2) ∈ joins lowest first second := by
    rintro ⟨⟨p, s⟩, ⟨q, t⟩⟩ hpair
    simp only [Finset.mem_filter, Finset.mem_product, mem_written] at hpair
    obtain ⟨⟨⟨hp, hs⟩, hq, ht⟩, hle, hlt⟩ := hpair
    show (p, q, t - s) ∈ joins lowest first second
    refine mem_joins.mpr ⟨hp, hq, ?_, by omega⟩
    exact mem_offsets_of_lt hs ht (fun h => hsecond (h ▸ hq)) (by omega) hlt
  rw [Finset.card_eq_sum_card_fiberwise hjoin, joinCount]
  refine Finset.sum_congr rfl fun join hmem => ?_
  obtain ⟨p, q, offset⟩ := join
  obtain ⟨hp, hq, hoffset, hlowest⟩ := mem_joins.mp hmem
  have hne : q ≠ "" := fun h => hsecond (h ▸ hq)
  -- a pair with this distance is told by the place of its first occurrence
  refine Finset.card_bij (fun pair _ => pair.1.2) ?_ ?_ ?_
  · rintro ⟨⟨p', s⟩, ⟨q', t⟩⟩ hpair
    simp only [Finset.mem_filter, Finset.mem_product, mem_written, Prod.mk.injEq] at hpair
    obtain ⟨⟨⟨⟨-, hs⟩, -, ht⟩, hle, hlt⟩, rfl, rfl, rfl⟩ := hpair
    show s ∈ positions text (joined p' q' (t - s))
    refine (mem_positions_joined hoffset hne).mpr ⟨hs, ?_⟩
    rwa [Nat.add_sub_cancel' (by omega)]
  · rintro ⟨⟨p₁, s₁⟩, ⟨q₁, t₁⟩⟩ h₁ ⟨⟨p₂, s₂⟩, ⟨q₂, t₂⟩⟩ h₂ hsame
    simp only [Finset.mem_filter, Finset.mem_product, mem_written, Prod.mk.injEq] at h₁ h₂ hsame ⊢
    obtain ⟨⟨-, hle₁, -⟩, rfl, rfl, hoffset₁⟩ := h₁
    obtain ⟨⟨-, hle₂, -⟩, rfl, rfl, hoffset₂⟩ := h₂
    refine ⟨⟨rfl, hsame⟩, rfl, ?_⟩
    omega
  · intro start hstart
    obtain ⟨hs, ht⟩ := (mem_positions_joined hoffset hne).mp hstart
    have hlt := (mem_offsets.mp hoffset).1
    refine ⟨((p, start), (q, start + offset)), ?_, rfl⟩
    simp only [Finset.mem_filter, Finset.mem_product, mem_written, Prod.mk.injEq, true_and]
    exact ⟨⟨⟨⟨hp, hs⟩, hq, ht⟩, by omega, by omega⟩, by omega⟩

/-- **Pairs that share a part are as many as joined texts.** -/
theorem card_overlap (hfirst : "" ∉ first) (hsecond : "" ∉ second) (text : String) :
    ((written text first ×ˢ written text second).filter fun pair => Overlap pair.1 pair.2).card =
      joinCount text 0 first second + joinCount text 1 second first := by
  rw [← card_following hsecond, ← card_following hfirst]
  have hswap : ((written text second ×ˢ written text first).filter fun pair =>
      pair.1.2 + 1 ≤ pair.2.2 ∧ pair.2.2 < pair.1.2 + pair.1.1.length).card =
      ((written text first ×ˢ written text second).filter fun pair =>
        pair.2.2 + 1 ≤ pair.1.2 ∧ pair.1.2 < pair.2.2 + pair.2.1.length).card := by
    refine Finset.card_bij (fun pair _ => pair.swap) ?_ ?_ ?_
    · rintro ⟨a, b⟩ hpair
      simp only [Finset.mem_filter, Finset.mem_product, Prod.swap_prod_mk] at hpair ⊢
      exact ⟨hpair.1.symm, hpair.2⟩
    · exact fun _ _ _ _ hsame => Prod.swap_injective hsame
    · rintro ⟨a, b⟩ hpair
      simp only [Finset.mem_filter, Finset.mem_product] at hpair
      refine ⟨(b, a), ?_, rfl⟩
      simp only [Finset.mem_filter, Finset.mem_product]
      exact ⟨hpair.1.symm, hpair.2⟩
  rw [hswap, ← Finset.card_union_of_disjoint, ← Finset.filter_or]
  · congr 1
    refine Finset.filter_congr fun pair hpair => ?_
    obtain ⟨ha, hb⟩ := Finset.mem_product.mp hpair
    have hapos := length_pos_of_mem_written hfirst ha
    have hbpos := length_pos_of_mem_written hsecond hb
    unfold Overlap
    omega
  · refine Finset.disjoint_filter.mpr fun pair _ hle hlt => ?_
    omega

end overlaps

end OpenGuard.Lib
