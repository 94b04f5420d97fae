import Mathlib.Logic.Basic
import Mathlib.Data.Option.Basic

/-!
# Runs of a partial step function

A system is a step function `step : σ → α → Option σ`: the action `a` is possible in the state
`s` exactly when `step s a` is `some`. `run step s as` executes a whole list of actions.

* `run_invariant`: what the start satisfies and every step preserves, holds where the run ends;
  `run_history_invariant` is the rule for a property of the state and the actions so far.
* `StepsMeet P step s as`: every step of the run satisfies the side condition `P`;
  `run_invariant_of_meets` is the invariant rule for those runs, `StepsMeet.of_run` gives the
  condition of one step, and `stepsMeet_concat` splits off the last one.
-/

namespace OpenGuard.Lib

variable {σ α : Type*}

/-- Executes a list of actions, failing at the first one that is not possible. -/
def run (step : σ → α → Option σ) : σ → List α → Option σ
  | s, [] => some s
  | s, a :: as => (step s a).bind fun t => run step t as

section run

variable {step : σ → α → Option σ} {s t : σ} {a : α} {as : List α}

@[simp] theorem run_nil : run step s [] = some s := rfl

theorem run_cons : run step s (a :: as) = (step s a).bind fun t => run step t as := rfl

/-- The run of a nonempty list is a first step and a run from where it leads. -/
theorem run_cons_eq_some :
    run step s (a :: as) = some t ↔ ∃ u, step s a = some u ∧ run step u as = some t := by
  rw [run_cons, Option.bind_eq_some_iff]

/-- A run of two lists is a run of the first and one of the second from where that leads. -/
theorem run_append_eq_some {bs : List α} :
    run step s (as ++ bs) = some t ↔ ∃ u, run step s as = some u ∧ run step u bs = some t := by
  induction as generalizing s with
  | nil => simp
  | cons a as ih =>
      rw [List.cons_append, run_cons, run_cons]
      cases step s a with
      | none => simp
      | some u => exact ih

/-- **The invariant rule**: a property of the start that every step preserves holds at the end
of every run. -/
theorem run_invariant {I : σ → Prop}
    (hstep : ∀ s a t, I s → step s a = some t → I t) (hs : I s)
    (hrun : run step s as = some t) : I t := by
  induction as generalizing s with
  | nil =>
      rw [run_nil, Option.some_inj] at hrun
      exact hrun ▸ hs
  | cons a as ih =>
      obtain ⟨u, hu, hrun⟩ := run_cons_eq_some.mp hrun
      exact ih (hstep s a u hs hu) hrun

/-- **The invariant rule with history**: what relates a state to the actions that led to it. -/
theorem run_history_invariant {I : List α → σ → Prop} (hstart : I [] s)
    (hstep : ∀ as u a t, I as u → step u a = some t → I (as ++ [a]) t)
    (hrun : run step s as = some t) : I as t := by
  have hfrom : ∀ (bs past : List α) (u : σ), I past u → run step u bs = some t →
      I (past ++ bs) t := by
    intro bs
    induction bs with
    | nil =>
        intro past u hu hrun
        rw [run_nil, Option.some_inj] at hrun
        rw [List.append_nil]
        exact hrun ▸ hu
    | cons b bs ih =>
        intro past u hu hrun
        obtain ⟨v, hv, hrun⟩ := run_cons_eq_some.mp hrun
        rw [List.append_cons]
        exact ih (past ++ [b]) v (hstep past u b v hu hv) hrun
  exact hfrom as [] s hstart hrun

end run

/-- Every step of the run of `as` from `s` satisfies the side condition `P`. -/
def StepsMeet (P : σ → α → Prop) (step : σ → α → Option σ) : σ → List α → Prop
  | _, [] => True
  | s, a :: as => P s a ∧ ∀ t, step s a = some t → StepsMeet P step t as

section meets

variable {P : σ → α → Prop} {step : σ → α → Option σ} {s t : σ} {as : List α}

/-- The invariant rule for the runs whose steps all meet `P`. -/
theorem run_invariant_of_meets {I : σ → Prop}
    (hstep : ∀ s a t, I s → P s a → step s a = some t → I t) (hs : I s)
    (hmeet : StepsMeet P step s as) (hrun : run step s as = some t) : I t := by
  induction as generalizing s with
  | nil =>
      rw [run_nil, Option.some_inj] at hrun
      exact hrun ▸ hs
  | cons a as ih =>
      obtain ⟨u, hu, hrun⟩ := run_cons_eq_some.mp hrun
      exact ih (hstep s a u hs hmeet.1 hu) (hmeet.2 u hu) hrun

/-- The side condition for one more step is that for the steps before and for the last one. -/
theorem stepsMeet_concat {a : α} :
    StepsMeet P step s (as ++ [a]) ↔
      StepsMeet P step s as ∧ ∀ t, run step s as = some t → P t a := by
  induction as generalizing s with
  | nil => simp [StepsMeet]
  | cons b as ih =>
      simp only [List.cons_append, StepsMeet, run_cons_eq_some]
      constructor
      · rintro ⟨hb, hrest⟩
        refine ⟨⟨hb, fun t ht => (ih.mp (hrest t ht)).1⟩, ?_⟩
        rintro t ⟨u, hu, hrun⟩
        exact (ih.mp (hrest u hu)).2 t hrun
      · rintro ⟨⟨hb, hrest⟩, hlast⟩
        exact ⟨hb, fun t ht => ih.mpr ⟨hrest t ht, fun u hu => hlast u ⟨t, ht, hu⟩⟩⟩

/-- The first steps of a run whose steps all meet the side condition. -/
theorem StepsMeet.of_append {bs : List α} (h : StepsMeet P step s (as ++ bs)) :
    StepsMeet P step s as := by
  induction as generalizing s with
  | nil => trivial
  | cons a as ih => exact ⟨h.1, fun t ht => ih (h.2 t ht)⟩

/-- The side condition holds of each step of the run. -/
theorem StepsMeet.of_run {a : α} {bs : List α} (h : StepsMeet P step s (as ++ a :: bs))
    (hrun : run step s as = some t) : P t a := by
  induction as generalizing s with
  | nil =>
      rw [run_nil, Option.some_inj] at hrun
      exact hrun ▸ h.1
  | cons b as ih =>
      obtain ⟨u, hu, hrun⟩ := run_cons_eq_some.mp hrun
      exact ih (h.2 u hu) hrun

/-- Actions that meet `P` in every state. -/
theorem StepsMeet.of_forall (h : ∀ a ∈ as, ∀ s, P s a) : StepsMeet P step s as := by
  induction as generalizing s with
  | nil => trivial
  | cons a as ih =>
      refine ⟨h a List.mem_cons_self s, ?_⟩
      intro t _
      exact ih fun b hb => h b (List.mem_cons_of_mem a hb)

end meets

end OpenGuard.Lib
