import Mathlib.Data.List.DropRight
import Mathlib.Data.List.Infix

/-!
# Sliding windows

A window keeps the newest items of a sequence: an item enters at the back, and items leave at the
front, when there are too many or when they are too old.

* `pushBack`: an item enters a window of bounded length; `pushBack_rtake`: a window that held the
  newest items of a sequence holds the newest items of the longer sequence.
* `filter_isSuffix`: dropping the items that fail a test drops them from the front, when no item
  that fails comes after one that passes; `filter_rtake`: what is left of the newest items are the
  newest of what is left.
* `InTime`: the items of interest come early enough to be among the first items that are kept;
  `filter_take_iff` says that this is when none of them is lost.
-/

namespace OpenGuard.Lib

variable {α : Type*}

/-- An item enters at the back of a window of at most `bound` items, and the oldest leave. -/
def pushBack (bound : ℕ) (window : List α) (item : α) : List α :=
  (window ++ [item]).drop ((window ++ [item]).length - bound)

section window

variable {bound : ℕ} {window sequence : List α} {item : α} {p : α → Bool}

/-- The window stays a suffix of the sequence that passes through it. -/
theorem pushBack_isSuffix (h : window <:+ sequence) :
    pushBack bound window item <:+ sequence ++ [item] :=
  (List.drop_suffix _ _).trans (List.suffix_append_self_iff.mpr h)

theorem mem_of_mem_pushBack {other : α} (h : other ∈ pushBack bound window item) :
    other ∈ window ∨ other = item := by
  have hmem := List.mem_of_mem_drop h
  rwa [List.mem_append, List.mem_singleton] at hmem

theorem pushBack_eq_rtake : pushBack bound window item = (window ++ [item]).rtake bound := rfl

theorem length_pushBack_le : (pushBack bound window item).length ≤ bound := by
  rw [pushBack, List.length_drop]
  omega

/-- The newest item is the one that entered last. -/
theorem getLast?_pushBack (h : 0 < bound) : (pushBack bound window item).getLast? = some item := by
  obtain ⟨n, rfl⟩ : ∃ n, bound = n + 1 := ⟨bound - 1, by omega⟩
  rw [pushBack_eq_rtake, List.rtake_concat_succ, List.getLast?_concat]

theorem rtake_rtake (m n : ℕ) : (sequence.rtake n).rtake m = sequence.rtake (min m n) := by
  simp [List.rtake_eq_reverse_take_reverse, List.take_take]

/-- A window that held the newest items still does when the sequence grows. -/
theorem pushBack_rtake :
    pushBack bound (sequence.rtake bound) item = (sequence ++ [item]).rtake bound := by
  rw [pushBack_eq_rtake]
  cases bound with
  | zero => simp
  | succ n =>
      rw [List.rtake_concat_succ, List.rtake_concat_succ, rtake_rtake, Nat.min_eq_left (by omega)]

/-- A test that, once passed, is passed by everything after drops a front part. -/
theorem filter_isSuffix (h : window.Pairwise fun a b => p a → p b) :
    window.filter p <:+ window := by
  induction window with
  | nil => exact List.suffix_rfl
  | cons a window ih =>
      obtain ⟨hhead, htail⟩ := List.pairwise_cons.mp h
      by_cases hp : p a
      · have hall : (a :: window).filter p = a :: window := by
          apply List.filter_eq_self.mpr
          intro b hb
          rcases List.mem_cons.mp hb with rfl | hb
          · exact hp
          · exact hhead b hb hp
        rw [hall]
      · rw [List.filter_cons_of_neg hp]
        exact (ih htail).trans (List.suffix_cons a window)

/-- A window whose items all pass a test is a window on the items that pass. -/
theorem isSuffix_filter (h : window <:+ sequence) (hp : ∀ a ∈ window, p a) :
    window <:+ sequence.filter p := by
  obtain ⟨front, rfl⟩ := h
  rw [List.filter_append, List.filter_eq_self.mpr hp]
  exact List.suffix_append _ _

theorem rtake_of_length_le (h : sequence.length ≤ bound) : sequence.rtake bound = sequence := by
  rw [List.rtake, Nat.sub_eq_zero_of_le h, List.drop_zero]

/-- Items that all fit in the window are at its end after they have entered. -/
theorem isSuffix_foldl_pushBack (items : List α) (h : items.length ≤ bound) :
    items <:+ items.foldl (pushBack bound) window := by
  induction items using List.reverseRecOn with
  | nil => exact List.nil_suffix
  | append_singleton items item ih =>
      rw [List.length_append, List.length_singleton] at h
      rw [List.foldl_concat]
      have hearlier : items ++ [item] <:+ items.foldl (pushBack bound) window ++ [item] :=
        List.suffix_append_self_iff.mpr (ih (by omega))
      refine List.suffix_of_suffix_length_le hearlier (List.drop_suffix _ _) ?_
      have hlength := hearlier.length_le
      rw [pushBack, List.length_drop]
      simp only [List.length_append, List.length_singleton] at hlength ⊢
      omega

/-- A test that, once passed, is passed by everything after commutes with keeping the newest. -/
theorem filter_rtake (h : sequence.Pairwise fun a b => p a → p b) :
    (sequence.rtake bound).filter p = (sequence.filter p).rtake bound := by
  induction sequence with
  | nil => simp
  | cons a sequence ih =>
      obtain ⟨hhead, htail⟩ := List.pairwise_cons.mp h
      by_cases hp : p a
      · have hall : ∀ b ∈ a :: sequence, p b := by
          intro b hb
          rcases List.mem_cons.mp hb with rfl | hb
          · exact hp
          · exact hhead b hb hp
        rw [List.filter_eq_self.mpr hall, List.filter_eq_self.mpr]
        intro b hb
        exact hall b (List.mem_of_mem_drop hb)
      · rw [List.filter_cons_of_neg hp]
        by_cases hlen : (a :: sequence).length ≤ bound
        · have hfilter := List.length_filter_le p sequence
          rw [List.length_cons] at hlen
          rw [rtake_of_length_le hlen, List.filter_cons_of_neg hp,
            rtake_of_length_le (hfilter.trans (by omega))]
        · rw [← ih htail, List.rtake, List.rtake, List.length_cons]
          rw [List.length_cons] at hlen
          rw [show sequence.length + 1 - bound = (sequence.length - bound) + 1 by omega,
            List.drop_succ_cons]

end window

/-! ## The first items -/

/-- A part of a sequence has all items of interest, when filtering both leaves the same. -/
theorem filter_sublist_iff {part sequence : List α} {interest : α → Bool}
    (h : part.Sublist sequence) :
    (sequence.filter interest).Sublist part ↔ part.filter interest = sequence.filter interest := by
  constructor
  · intro hall
    have hback := hall.filter interest
    rw [List.filter_filter, List.filter_congr fun x _ => Bool.and_self _] at hback
    exact (h.filter interest).antisymm hback
  · intro heq
    rw [← heq]
    exact List.filter_sublist

/-- Every item of interest comes after fewer than `bound` items that are kept. -/
def InTime (kept interest : α → Bool) (bound : ℕ) (sequence : List α) : Prop :=
  ∀ before item rest, sequence = before ++ item :: rest → interest item →
    (before.filter kept).length < bound

section first

variable {kept interest : α → Bool} {bound : ℕ} {sequence : List α} {first : α}

theorem inTime_cons : InTime kept interest bound (first :: sequence) ↔
    (interest first → 0 < bound) ∧
      InTime kept interest (if kept first then bound - 1 else bound) sequence := by
  constructor
  · refine fun h => ⟨fun hfirst => h [] first sequence rfl hfirst, ?_⟩
    intro before item rest hsplit hitem
    have hlength := h (first :: before) item rest (by rw [hsplit]; rfl) hitem
    split_ifs with hkept
    · rw [List.filter_cons_of_pos hkept, List.length_cons] at hlength
      omega
    · rwa [List.filter_cons_of_neg hkept] at hlength
  · rintro ⟨hfirst, hrest⟩ (_ | ⟨item, before⟩) other rest hsplit hother
    · obtain ⟨rfl, -⟩ := List.cons.inj hsplit
      exact hfirst hother
    · obtain ⟨rfl, htail⟩ := List.cons.inj hsplit
      have hlength := hrest before other rest htail hother
      split_ifs at hlength with hkept
      · rw [List.filter_cons_of_pos hkept, List.length_cons]
        omega
      · rwa [List.filter_cons_of_neg hkept]

/-- **No item of interest is lost** among the first items that are kept, just when all of them come
in time. -/
theorem filter_take_iff (hsub : ∀ item, interest item → kept item) :
    ((sequence.filter kept).take bound).filter interest = sequence.filter interest ↔
      InTime kept interest bound sequence := by
  induction sequence generalizing bound with
  | nil =>
      simp only [List.filter_nil, List.take_nil, true_iff]
      intro before item rest hsplit
      cases before <;> cases hsplit
  | cons first sequence ih =>
      rw [inTime_cons]
      by_cases hkept : kept first
      · rw [List.filter_cons_of_pos hkept, if_pos hkept, ← ih]
        cases bound with
        | zero =>
            by_cases hfirst : interest first
            · simp [hfirst]
            · simp [hfirst]
        | succ bound =>
            rw [List.take_succ_cons]
            by_cases hfirst : interest first
            · simp [hfirst]
            · simp [hfirst]
      · have hfirst : ¬interest first := fun hfirst => hkept (hsub first hfirst)
        rw [List.filter_cons_of_neg hkept, List.filter_cons_of_neg hfirst, if_neg hkept, ih]
        exact (and_iff_right fun hinterest => absurd hinterest hfirst).symm

end first

end OpenGuard.Lib
