import Mathlib.Data.Nat.Find
import Mathlib.Order.Filter.AtTopBot.Basic

/-!
# Runs that go on for ever

In a run without end some actions are helpful to what is waited for, and the others only do not
disturb it. When helpful actions keep coming, what is waited for happens.

* `stateAt`: the state after the first actions.
* `eventually_of_descent`: the rule. What is left to do is taken from a well-founded order; helpful
  actions make it less, and the others leave it.
-/

namespace OpenGuard.Lib

open Filter

variable {σ α ι : Type*}

/-- The state after the first `n` actions. -/
def stateAt (next : σ → α → σ) (s : σ) (actions : ℕ → α) : ℕ → σ
  | 0 => s
  | n + 1 => next (stateAt next s actions n) (actions n)

section fair

variable {next : σ → α → σ} {helpful : α → Prop} {actions : ℕ → α} {s : σ}

theorem stateAt_add (k n : ℕ) :
    stateAt next (stateAt next s actions k) (fun i => actions (k + i)) n =
      stateAt next s actions (k + n) := by
  induction n with
  | zero => rfl
  | succ n ih => rw [stateAt, ih, ← Nat.add_assoc, stateAt]

/-- What happens again and again still does so later. -/
theorem frequently_shift (h : ∃ᶠ n in atTop, helpful (actions n)) (k : ℕ) :
    ∃ᶠ n in atTop, helpful (actions (k + n)) := by
  refine frequently_atTop.mpr fun n => ?_
  obtain ⟨m, hm, hhelpful⟩ := frequently_atTop.mp h (k + n)
  refine ⟨m - k, by omega, ?_⟩
  rwa [Nat.add_sub_cancel' (by omega)]

/-- What is not disturbed holds up to the first helpful action. -/
theorem exists_helpful {I : σ → Prop} (h : ∃ᶠ n in atTop, helpful (actions n)) (hs : I s)
    (hother : ∀ t a, I t → ¬helpful a → I (next t a)) :
    ∃ n, I (stateAt next s actions n) ∧ helpful (actions n) := by
  classical
  have hfirst := h.exists
  refine ⟨Nat.find hfirst, ?_, Nat.find_spec hfirst⟩
  have hbefore : ∀ n ≤ Nat.find hfirst, I (stateAt next s actions n) := by
    intro n
    induction n with
    | zero => exact fun _ => hs
    | succ n ih => exact fun hn => hother _ _ (ih (by omega)) (Nat.find_min hfirst hn)
  exact hbefore _ le_rfl

/-- **The rule of what happens in the end**: there is less and less left to do. -/
theorem eventually_of_descent {less : ι → ι → Prop} (hless : WellFounded less)
    {I : ι → σ → Prop} {goal : σ → Prop}
    (hother : ∀ i t a, I i t → ¬helpful a → I i (next t a))
    (hhelpful : ∀ i t, I i t → goal t ∨ ∀ a, helpful a → ∃ j, less j i ∧ I j (next t a))
    {i : ι} (hs : I i s) (h : ∃ᶠ n in atTop, helpful (actions n)) :
    ∃ n, goal (stateAt next s actions n) := by
  induction i using hless.induction generalizing s actions with
  | _ i ih =>
      obtain ⟨n, hn, hact⟩ := exists_helpful h hs (hother i)
      obtain hgoal | hnext := hhelpful i _ hn
      · exact ⟨n, hgoal⟩
      · obtain ⟨j, hj, hI⟩ := hnext _ hact
        change I j (stateAt next s actions (n + 1)) at hI
        obtain ⟨m, hm⟩ := ih j hj hI (frequently_shift h (n + 1))
        rw [stateAt_add] at hm
        exact ⟨n + 1 + m, hm⟩

end fair

end OpenGuard.Lib
