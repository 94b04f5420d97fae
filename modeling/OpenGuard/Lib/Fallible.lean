import Mathlib.Data.List.Forall2

/-!
# Fallible computations

When a computation in `Except` succeeds, told by the way it is put together.

* `bind_eq_ok`, `map_eq_ok`, `mapError_eq_ok`, `mapM_eq_ok`: the steps succeed.
* `ensure`, `okOr`: a check, and an optional value that has to be there.
-/

namespace OpenGuard.Lib

variable {ε ε' α β : Type*}

/-- A check that fails with an error. -/
def ensure (p : Prop) [Decidable p] (error : ε) : Except ε Unit :=
  if p then .ok () else .error error

/-- `Option::ok_or` -/
def okOr (error : ε) : Option α → Except ε α
  | some a => .ok a
  | none => .error error

theorem ensure_eq_ok {p : Prop} [Decidable p] {error : ε} {u : Unit} :
    ensure p error = .ok u ↔ p := by
  unfold ensure
  split_ifs with h
  · exact iff_of_true rfl h
  · exact iff_of_false nofun h

theorem okOr_eq_ok {error : ε} {o : Option α} {a : α} : okOr error o = .ok a ↔ o = some a := by
  cases o <;> simp [okOr]

theorem pure_eq_ok {a b : α} : (pure a : Except ε α) = .ok b ↔ a = b := by
  simp [pure, Except.pure]

theorem bind_eq_ok {α β : Type _} {r : Except ε α} {f : α → Except ε β} {b : β} :
    r >>= f = .ok b ↔ ∃ a, r = .ok a ∧ f a = .ok b := by
  cases r <;> simp [bind, Except.bind]

theorem map_eq_ok {r : Except ε α} {f : α → β} {b : β} :
    r.map f = .ok b ↔ ∃ a, r = .ok a ∧ f a = b := by
  cases r <;> simp [Except.map]

theorem mapError_eq_ok {r : Except ε α} {f : ε → ε'} {a : α} :
    r.mapError f = .ok a ↔ r = .ok a := by
  cases r <;> simp [Except.mapError]

/-- Every item is mapped. -/
theorem mapM_eq_ok {α β : Type _} {f : α → Except ε β} {items : List α} {results : List β} :
    items.mapM f = .ok results ↔ List.Forall₂ (fun a b => f a = .ok b) items results := by
  induction items generalizing results with
  | nil => rw [List.mapM_nil, pure_eq_ok, List.forall₂_nil_left_iff, eq_comm]
  | cons item items ih =>
      rw [List.mapM_cons, bind_eq_ok, List.forall₂_cons_left_iff]
      refine exists_congr fun b => ?_
      simp only [bind_eq_ok, pure_eq_ok, ih]
      constructor
      · rintro ⟨hitem, rest, hrest, rfl⟩
        exact ⟨rest, hitem, hrest, rfl⟩
      · rintro ⟨rest, hitem, hrest, rfl⟩
        exact ⟨hitem, rest, hrest, rfl⟩

theorem exists_mapM_ok {α β : Type _} {f : α → Except ε β} {items : List α} :
    (∃ results, items.mapM f = .ok results) ↔ ∀ item ∈ items, ∃ b, f item = .ok b := by
  induction items with
  | nil => exact iff_of_true ⟨[], rfl⟩ nofun
  | cons item items ih =>
      rw [List.forall_mem_cons, ← ih]
      simp only [mapM_eq_ok, List.forall₂_cons_left_iff]
      constructor
      · rintro ⟨_, b, rest, hitem, hrest, -⟩
        exact ⟨⟨b, hitem⟩, rest, hrest⟩
      · rintro ⟨⟨b, hitem⟩, rest, hrest⟩
        exact ⟨_, b, rest, hitem, hrest, rfl⟩

/-- What is mapped to something is mapped to one of the results. -/
theorem exists_of_forall₂ {R : α → β → Prop} {items : List α} {results : List β} {a : α}
    (h : List.Forall₂ R items results) (ha : a ∈ items) : ∃ b ∈ results, R a b := by
  induction h with
  | nil => cases ha
  | cons hfirst _ ih =>
      rcases List.mem_cons.mp ha with rfl | hrest
      · exact ⟨_, List.mem_cons_self, hfirst⟩
      · obtain ⟨b, hb, hR⟩ := ih hrest
        exact ⟨b, List.mem_cons_of_mem _ hb, hR⟩

end OpenGuard.Lib
