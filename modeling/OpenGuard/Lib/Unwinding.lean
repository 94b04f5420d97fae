import OpenGuard.Lib.Table

/-!
# Runs as one of several users sees them

A machine that answers every action. What a user observes of a run are the own actions and the
answers to them; the actions of others are invisible when deleting them from the run changes no
answer.

* `transcript_filter`: the unwinding rule. A relation of two states that an action keeps when both
  take it, with the same answer where the user sees it, and that an action of another user keeps
  when only the first state takes it, makes the actions of the others invisible.
* `AgreeOn p t u`: two tables have the same entries among those that satisfy `p`, which is what
  such a relation says of the tables of the machine.
-/

namespace OpenGuard.Lib

section transcript

variable {σ α ρ : Type*} (step : σ → α → ρ × σ)

/-- The actions of a run, each with its answer. -/
def transcript : σ → List α → List (α × ρ)
  | _, [] => []
  | s, a :: as => (a, (step s a).1) :: transcript (step s a).2 as

theorem transcript_cons (s : σ) (a : α) (as : List α) :
    transcript step s (a :: as) = (a, (step s a).1) :: transcript step (step s a).2 as := rfl

/-- **The unwinding rule.** The actions that are not kept may be deleted from a run without a change
of the answers that are seen. -/
theorem transcript_filter (seen kept : α → Bool) {R : σ → σ → Prop} {as : List α}
    (hseen : ∀ a, seen a → kept a)
    (hkept : ∀ a ∈ as, kept a → ∀ s t, R s t →
      (seen a → (step s a).1 = (step t a).1) ∧ R (step s a).2 (step t a).2)
    (hother : ∀ a ∈ as, ¬kept a → ∀ s t, R s t → R (step s a).2 t) {s t : σ} (h : R s t) :
    (transcript step s as).filter (fun entry => seen entry.1) =
      (transcript step t (as.filter kept)).filter fun entry => seen entry.1 := by
  induction as generalizing s t with
  | nil => rfl
  | cons a as ih =>
      have hrest : ∀ {s t : σ}, R s t →
          (transcript step s as).filter (fun entry => seen entry.1) =
            (transcript step t (as.filter kept)).filter fun entry => seen entry.1 :=
        ih (fun b hb => hkept b (List.mem_cons_of_mem a hb))
          fun b hb => hother b (List.mem_cons_of_mem a hb)
      rw [transcript_cons, List.filter_cons]
      by_cases ha : kept a
      · obtain ⟨hreply, hnext⟩ := hkept a List.mem_cons_self ha s t h
        rw [List.filter_cons_of_pos ha, transcript_cons, List.filter_cons, hrest hnext]
        by_cases hs : seen a
        · rw [if_pos hs, if_pos hs, hreply hs]
        · rw [if_neg hs, if_neg hs]
      · rw [List.filter_cons_of_neg ha, if_neg fun hs => ha (hseen a hs)]
        exact hrest (hother a List.mem_cons_self ha s t h)

end transcript

section agree

variable {κ ν : Type*} [DecidableEq κ] {p : κ → ν → Bool} {t u : Table κ ν} {k : κ} {v : ν}

/-- The tables have the same entries among those that satisfy `p`, in the same order. -/
def AgreeOn (p : κ → ν → Bool) (t u : Table κ ν) : Prop := Table.retain p t = Table.retain p u

omit [DecidableEq κ] in
@[simp] theorem AgreeOn.refl (t : Table κ ν) : AgreeOn p t t := Eq.refl _

omit [DecidableEq κ] in
theorem AgreeOn.entries_filter (h : AgreeOn p t u) :
    (t.entries.filter fun e => p e.1 e.2) = u.entries.filter fun e => p e.1 e.2 := by
  rw [← Table.entries_retain, ← Table.entries_retain, h]

theorem AgreeOn.lookup_filter (h : AgreeOn p t u) (k : κ) :
    (t.lookup k).filter (p k) = (u.lookup k).filter (p k) := by
  rw [← Table.lookup_retain, ← Table.lookup_retain, h]

/-- A key whose entries in both tables satisfy `p`. -/
theorem AgreeOn.lookup_eq (h : AgreeOn p t u) (ht : ∀ v, t.lookup k = some v → p k v)
    (hu : ∀ v, u.lookup k = some v → p k v) : t.lookup k = u.lookup k := by
  have hfilter : ∀ o : Option ν, (∀ v, o = some v → p k v) → o.filter (p k) = o := by
    rintro (_ | v) hv
    · rfl
    · rw [Option.filter_some, if_pos (hv v rfl)]
  rw [← hfilter _ ht, h.lookup_filter, hfilter _ hu]

/-- Under a key the tables have the same entry that satisfies `p`, or neither has one. -/
theorem AgreeOn.lookup_cases (h : AgreeOn p t u) (k : κ) :
    (∃ v, p k v ∧ t.lookup k = some v ∧ u.lookup k = some v) ∨
      (∀ v, t.lookup k = some v → ¬p k v) ∧ ∀ v, u.lookup k = some v → ¬p k v := by
  have hfilter := h.lookup_filter k
  cases hv : (u.lookup k).filter (p k) with
  | none =>
      rw [hv] at hfilter
      exact Or.inr ⟨Option.filter_eq_none_iff.mp hfilter, Option.filter_eq_none_iff.mp hv⟩
  | some v =>
      rw [hv] at hfilter
      obtain ⟨ht, hp⟩ := Option.filter_eq_some_iff.mp hfilter
      exact Or.inl ⟨v, hp, ht, (Option.filter_eq_some_iff.mp hv).1⟩

theorem AgreeOn.insert (h : AgreeOn p t u) (hv : p k v) :
    AgreeOn p (t.insert k v) (u.insert k v) := by
  rw [AgreeOn, Table.retain_insert_of_pos hv, Table.retain_insert_of_pos hv, h]

theorem AgreeOn.erase (h : AgreeOn p t u) (k : κ) : AgreeOn p (t.erase k) (u.erase k) := by
  rw [AgreeOn, Table.retain_erase, Table.retain_erase, h]

/-- An entry that does not satisfy `p` and replaces none that does. -/
theorem agreeOn_insert (hv : ¬p k v) (hold : ∀ old, t.lookup k = some old → ¬p k old) :
    AgreeOn p (t.insert k v) t := by
  rw [AgreeOn, Table.retain_insert_of_neg hv]
  apply Table.erase_eq_self
  rw [Table.lookup_retain]
  exact Option.filter_eq_none_iff.mpr hold

theorem agreeOn_erase (hold : ∀ old, t.lookup k = some old → ¬p k old) :
    AgreeOn p (t.erase k) t := by
  rw [AgreeOn, Table.retain_erase]
  apply Table.erase_eq_self
  rw [Table.lookup_retain]
  exact Option.filter_eq_none_iff.mpr hold

omit [DecidableEq κ] in
/-- A sequence of changes each of which keeps the agreement. -/
theorem AgreeOn.foldl {ι : Type*} {f : Table κ ν → ι → Table κ ν} {l : List ι}
    (hf : ∀ i ∈ l, ∀ t u, AgreeOn p t u → AgreeOn p (f t i) (f u i)) (h : AgreeOn p t u) :
    AgreeOn p (l.foldl f t) (l.foldl f u) := by
  induction l generalizing t u with
  | nil => exact h
  | cons i l ih =>
      refine ih (fun j hj => hf j (List.mem_cons_of_mem i hj)) ?_
      exact hf i List.mem_cons_self t u h

omit [DecidableEq κ] in
/-- A sequence of changes none of which concerns the entries that satisfy `p`. -/
theorem agreeOn_foldl {ι : Type*} {f : Table κ ν → ι → Table κ ν} {l : List ι}
    (hf : ∀ i ∈ l, ∀ t, AgreeOn p (f t i) t) : AgreeOn p (l.foldl f t) t := by
  induction l generalizing t with
  | nil => exact .refl t
  | cons i l ih =>
      have hrest := ih (fun j hj => hf j (List.mem_cons_of_mem i hj)) (t := f t i)
      exact Eq.trans hrest (hf i List.mem_cons_self t)

end agree

end OpenGuard.Lib
