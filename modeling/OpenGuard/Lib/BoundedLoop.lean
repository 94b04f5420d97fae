import Mathlib.Data.List.Basic

/-!
# Loops that collect up to a limit

`pushUntil limit f l acc` goes through `l`, pushes what `f` gives onto `acc`, and stops at the
first element after which `acc` has reached the limit. The test stands after the push, so with an
`acc` that is full from the start one element is still looked at.

* `pushUntil_of_lt`: below the limit the loop takes the first results that fit.
* `pushUntil_of_le`: at the limit it looks at the first element only.
* `mem_pushUntil`: it adds results of `f` and nothing else.
-/

namespace OpenGuard.Lib

variable {α β : Type*}

/-- Pushes the results of `f` until the limit is reached. -/
def pushUntil (limit : ℕ) (f : α → Option β) : List α → List β → List β
  | [], acc => acc
  | a :: rest, acc =>
      let acc := acc ++ (f a).toList
      if limit ≤ acc.length then acc else pushUntil limit f rest acc

section pushUntil

variable {limit : ℕ} {f : α → Option β} {l : List α} {acc : List β}

/-- Below the limit, the loop takes the first results that fit. -/
theorem pushUntil_of_lt (h : acc.length < limit) :
    pushUntil limit f l acc = acc ++ (l.filterMap f).take (limit - acc.length) := by
  induction l generalizing acc with
  | nil => simp [pushUntil]
  | cons a rest ih =>
      unfold pushUntil
      cases hf : f a with
      | none =>
          rw [Option.toList_none, List.append_nil, if_neg (Nat.not_le.mpr h), ih h,
            List.filterMap_cons_none hf]
      | some b =>
          rw [List.filterMap_cons_some hf]
          obtain ⟨room, hroom⟩ : ∃ room, limit - acc.length = room + 1 :=
            ⟨limit - acc.length - 1, by omega⟩
          have hlen : (acc ++ [b]).length = acc.length + 1 := by simp
          rw [hroom, List.take_succ_cons]
          dsimp only [Option.toList_some]
          split_ifs with hfull
          · have hzero : room = 0 := by omega
            rw [hzero, List.take_zero]
          · rw [ih (by omega), hlen, List.append_assoc, List.singleton_append,
              show limit - (acc.length + 1) = room by omega]

/-- At the limit, the loop still looks at the first element. -/
theorem pushUntil_of_le (h : limit ≤ acc.length) :
    pushUntil limit f l acc = acc ++ (l.head?.bind f).toList := by
  cases l with
  | nil => simp [pushUntil]
  | cons a rest =>
      unfold pushUntil
      rw [if_pos (Nat.le_trans h (by simp)), List.head?_cons, Option.bind_some]

/-- What the loop adds are results of `f`. -/
theorem mem_pushUntil {b : β} (h : b ∈ pushUntil limit f l acc) :
    b ∈ acc ∨ ∃ a ∈ l, f a = some b := by
  induction l generalizing acc with
  | nil => exact Or.inl h
  | cons a rest ih =>
      unfold pushUntil at h
      have hpush : b ∈ acc ++ (f a).toList → b ∈ acc ∨ ∃ a' ∈ a :: rest, f a' = some b := by
        intro hb
        rcases List.mem_append.mp hb with hb | hb
        · exact Or.inl hb
        · exact Or.inr ⟨a, List.mem_cons_self, by simpa using hb⟩
      dsimp only at h
      split_ifs at h
      · exact hpush h
      · rcases ih h with hb | ⟨a', hmem, hf⟩
        · exact hpush hb
        · exact Or.inr ⟨a', List.mem_cons_of_mem a hmem, hf⟩

end pushUntil

end OpenGuard.Lib
