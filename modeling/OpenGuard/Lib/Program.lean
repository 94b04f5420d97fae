import Mathlib.Data.List.Basic

/-!
# Programs that make calls

A program makes calls and goes on with their answers, until it returns a value. What a call does to
a state and how it is answered is said by a handler, which is given a choice of the environment for
each call: a fault, the answer of another party, the moment of an interruption. A program is run on
the choices that were made so far, so that a run that stops anywhere is the run on fewer choices.

* `exec`: what is left of a program, and the state, after some choices.
* `Safe`: the weakest precondition. Every call is made in a state that is fit for it, and the value
  that is returned meets a postcondition. `safe_bind`, `safe_perform`, `safe_tryBind` are its rules.
* `Calls`: the calls that a program can make at all; `Calls.safe` is the rule for what all of them
  preserve.
* `Safe.exec`: what is safe stays safe, whatever the environment has chosen.
* `exec_finishes`: every program comes to an end; `Safe.exists_run`: on allowed choices, too.
* `Reaches`: some choices lead to a state; `Reaches.exists_run`.
* `exec_related`: two runs in which all calls are answered alike.
-/

namespace OpenGuard.Lib

/-- A program that returns a value, or makes a call. -/
inductive Program (Op : Type) (Ans : Op → Type) (α : Type) where
  | ret (value : α)
  | call (op : Op) (next : Ans op → Program Op Ans α)

namespace Program

variable {Op : Type} {Ans : Op → Type} {α β ε σ τ χ : Type}

/-- One program after another. -/
def bind (f : α → Program Op Ans β) : Program Op Ans α → Program Op Ans β
  | ret value => f value
  | call op next => call op fun answer => bind f (next answer)

instance : Monad (Program Op Ans) where
  pure := ret
  bind p f := bind f p

/-- A single call. -/
def perform (op : Op) : Program Op Ans (Ans op) := call op ret

/-- A result that is known without a call. -/
def ofExcept (result : Except ε α) : ExceptT ε (Program Op Ans) α := ExceptT.mk (ret result)

/-- How a call is answered in a state, and what it leaves, when the environment chooses `choice`. -/
abbrev Handler (Op : Type) (Ans : Op → Type) (σ χ : Type) :=
  (op : Op) → (choice : χ) → σ → Ans op × σ

/-- What is left of the program after some choices, and the state. -/
def exec (handle : Handler Op Ans σ χ) : Program Op Ans α → σ → List χ → Program Op Ans α × σ
  | ret value, s, _ => (ret value, s)
  | call op next, s, [] => (call op next, s)
  | call op next, s, choice :: choices =>
      exec handle (next (handle op choice s).1) (handle op choice s).2 choices

/-- The value that was returned. -/
def result? : Program Op Ans α → Option α
  | ret value => some value
  | call _ _ => none

/-- Every choice is one that is allowed for its call. -/
def Allowed (handle : Handler Op Ans σ χ) (allow : Op → χ → Prop) :
    Program Op Ans α → σ → List χ → Prop
  | call op next, s, choice :: choices =>
      allow op choice ∧
        Allowed handle allow (next (handle op choice s).1) (handle op choice s).2 choices
  | _, _, _ => True

/-- Every call is made in a state that is fit for it, and the value that is returned meets the
postcondition, when the environment chooses what is allowed. -/
def Safe (handle : Handler Op Ans σ χ) (allow : Op → χ → Prop) (fit : Op → σ → Prop)
    (post : α → σ → Prop) : Program Op Ans α → σ → Prop
  | ret value, s => post value s
  | call op next, s =>
      fit op s ∧ ∀ choice, allow op choice →
        Safe handle allow fit post (next (handle op choice s).1) (handle op choice s).2

section rules

variable {handle : Handler Op Ans σ χ} {allow : Op → χ → Prop} {fit : Op → σ → Prop}
  {post post' : α → σ → Prop} {p : Program Op Ans α} {f : α → Program Op Ans β} {s : σ}

theorem safe_perform {op : Op} {post : Ans op → σ → Prop} :
    Safe handle allow fit post (perform op) s ↔
      fit op s ∧ ∀ choice, allow op choice → post (handle op choice s).1 (handle op choice s).2 :=
  Iff.rfl

/-- The rule of the sequence. -/
theorem safe_bind {post : β → σ → Prop} :
    Safe handle allow fit post (p >>= f) s ↔
      Safe handle allow fit (fun a t => Safe handle allow fit post (f a) t) p s := by
  induction p generalizing s with
  | ret value => exact Iff.rfl
  | call op next ih =>
      exact and_congr_right fun _ => forall_congr' fun choice => imp_congr_right fun _ => ih _

/-- The rule of consequence. -/
theorem Safe.mono (h : Safe handle allow fit post p s) (hpost : ∀ a t, post a t → post' a t) :
    Safe handle allow fit post' p s := by
  induction p generalizing s with
  | ret value => exact hpost value s h
  | call op next ih => exact ⟨h.1, fun choice hallow => ih _ (h.2 choice hallow)⟩

/-- The sequence of two programs, by what holds between them. -/
theorem Safe.bind {post : β → σ → Prop} (h : Safe handle allow fit post' p s)
    (hf : ∀ a t, post' a t → Safe handle allow fit post (f a) t) :
    Safe handle allow fit post (p >>= f) s :=
  safe_bind.mpr (h.mono hf)

/-- The rule of a fallible step: its error is the result of the whole. -/
theorem safe_tryBind {p : ExceptT ε (Program Op Ans) α} {f : α → ExceptT ε (Program Op Ans) β}
    {post : Except ε β → σ → Prop} :
    Safe handle allow fit post (p >>= f).run s ↔
      Safe handle allow fit (fun r t => match r with
        | .ok a => Safe handle allow fit post (f a).run t
        | .error error => post (.error error) t) p.run s := by
  refine safe_bind.trans ?_
  constructor
  all_goals
    intro h
    refine h.mono fun r t hr => ?_
    cases r <;> exact hr

/-- A fallible step, by what holds after it. -/
theorem Safe.tryBind {p : ExceptT ε (Program Op Ans) α} {f : α → ExceptT ε (Program Op Ans) β}
    {post : Except ε β → σ → Prop} {post' : Except ε α → σ → Prop}
    (h : Safe handle allow fit post' p.run s)
    (herror : ∀ error t, post' (.error error) t → post (.error error) t)
    (hf : ∀ a t, post' (.ok a) t → Safe handle allow fit post (f a).run t) :
    Safe handle allow fit post (p >>= f).run s := by
  refine safe_tryBind.mpr (h.mono fun r t hr => ?_)
  cases r with
  | error error => exact herror error t hr
  | ok a => exact hf a t hr

/-- The rule of a step that may not fail, such as one whose error is looked at. -/
theorem safe_liftBind {f : α → ExceptT ε (Program Op Ans) β} {post : Except ε β → σ → Prop} :
    Safe handle allow fit post (ExceptT.lift p >>= f).run s ↔
      Safe handle allow fit (fun a t => Safe handle allow fit post (f a).run t) p s := by
  rw [safe_tryBind]
  exact safe_bind (f := fun a => pure (Except.ok a))

end rules

/-! ## The calls of a program -/

/-- Whatever is answered, the program makes calls of a kind only. -/
def Calls (kind : Op → Prop) : Program Op Ans α → Prop
  | ret _ => True
  | call op next => kind op ∧ ∀ answer, Calls kind (next answer)

section calls

variable {handle : Handler Op Ans σ χ} {allow : Op → χ → Prop} {kind : Op → Prop}
  {p : Program Op Ans α} {s : σ}

theorem calls_perform {op : Op} : Calls kind (perform op : Program Op Ans (Ans op)) ↔ kind op :=
  and_iff_left fun _ => trivial

theorem Calls.bind {f : α → Program Op Ans β} (h : Calls kind p) (hf : ∀ a, Calls kind (f a)) :
    Calls kind (p >>= f) := by
  induction p with
  | ret value => exact hf value
  | call op next ih => exact ⟨h.1, fun answer => ih answer (h.2 answer)⟩

theorem Calls.tryBind {p : ExceptT ε (Program Op Ans) α} {f : α → ExceptT ε (Program Op Ans) β}
    (h : Calls kind p.run) (hf : ∀ a, Calls kind (f a).run) : Calls kind (p >>= f).run := by
  refine Calls.bind h fun r => ?_
  cases r with
  | ok a => exact hf a
  | error error => trivial

theorem Calls.liftBind {p : Program Op Ans α} {f : α → ExceptT ε (Program Op Ans) β}
    (h : Calls kind p) (hf : ∀ a, Calls kind (f a).run) :
    Calls kind (ExceptT.lift p >>= f).run :=
  Calls.tryBind (Calls.bind h fun _ => trivial) hf

/-- What every call of the kind preserves holds throughout. -/
theorem Calls.safe {I : σ → Prop} (h : Calls kind p)
    (hstep : ∀ op choice t, kind op → I t → I (handle op choice t).2) (hs : I s) :
    Safe handle allow (fun _ t => I t) (fun _ t => I t) p s := by
  induction p generalizing s with
  | ret value => exact hs
  | call op next ih =>
      exact ⟨hs, fun choice _ => ih _ (h.2 _) (hstep op choice s h.1 hs)⟩

/-- Only calls of the kind are made. -/
theorem Calls.fits (h : Calls kind p) :
    Safe handle allow (fun op _ => kind op) (fun _ _ => True) p s := by
  induction p generalizing s with
  | ret value => trivial
  | call op next ih => exact ⟨h.1, fun choice _ => ih _ (h.2 _)⟩

end calls

/-! ## Runs -/

section runs

variable {handle : Handler Op Ans σ χ} {allow : Op → χ → Prop} {fit : Op → σ → Prop}
  {post : α → σ → Prop} {p : Program Op Ans α} {s : σ} {choices : List χ}

@[simp] theorem exec_ret {value : α} (choices : List χ) :
    exec handle (ret value : Program Op Ans α) s choices = (ret value, s) := by
  cases choices <;> rfl

@[simp] theorem exec_nil : exec handle p s [] = (p, s) := by
  cases p <;> rfl

theorem exec_append (p : Program Op Ans α) (s : σ) (before later : List χ) :
    exec handle p s (before ++ later) =
      exec handle (exec handle p s before).1 (exec handle p s before).2 later := by
  induction before generalizing p s with
  | nil => rw [List.nil_append, exec_nil]
  | cons choice before ih =>
      cases p with
      | ret value => rw [exec_ret, exec_ret, exec_ret]
      | call op next => exact ih _ _

/-- **What is safe stays safe** in every run on allowed choices. -/
theorem Safe.exec (h : Safe handle allow fit post p s)
    (hallowed : Allowed handle allow p s choices) :
    Safe handle allow fit post (exec handle p s choices).1 (exec handle p s choices).2 := by
  induction choices generalizing p s with
  | nil => rwa [exec_nil]
  | cons choice choices ih =>
      cases p with
      | ret value => rwa [exec_ret]
      | call op next => exact ih (h.2 choice hallowed.1) hallowed.2

/-- Without a restriction every choice is allowed. -/
theorem allowed_of_forall (h : ∀ op choice, allow op choice) (p : Program Op Ans α) (s : σ)
    (choices : List χ) : Allowed handle allow p s choices := by
  induction choices generalizing p s with
  | nil => cases p <;> trivial
  | cons choice choices ih =>
      cases p with
      | ret value => trivial
      | call op next => exact ⟨h op choice, ih _ _⟩

/-- Choices each of which is allowed for every call. -/
theorem allowed_of_mem (h : ∀ choice ∈ choices, ∀ op, allow op choice) :
    Allowed handle allow p s choices := by
  induction choices generalizing p s with
  | nil => cases p <;> trivial
  | cons choice choices ih =>
      obtain ⟨hfirst, hrest⟩ := List.forall_mem_cons.mp h
      cases p with
      | ret value => trivial
      | call op next => exact ⟨hfirst op, ih hrest⟩

/-- The value of a safe program that has returned meets the postcondition. -/
theorem Safe.post_of_ret (h : Safe handle allow fit post p s)
    (hallowed : Allowed handle allow p s choices) {value : α}
    (hret : (Program.exec handle p s choices).1 = ret value) :
    post value (Program.exec handle p s choices).2 := by
  have hsafe := h.exec hallowed
  rwa [hret] at hsafe

/-- What holds in every state that is fit for a call, and in every state where a value is returned,
holds throughout. -/
theorem Safe.invariant {I : σ → Prop} (h : Safe handle allow fit post p s)
    (hallowed : Allowed handle allow p s choices) (hfit : ∀ op t, fit op t → I t)
    (hpost : ∀ a t, post a t → I t) : I (Program.exec handle p s choices).2 := by
  have hsafe := h.exec hallowed
  cases hleft : (Program.exec handle p s choices).1 with
  | ret value =>
      rw [hleft] at hsafe
      exact hpost value _ hsafe
  | call op next =>
      rw [hleft] at hsafe
      exact hfit op _ hsafe.1

/-- **Every program comes to an end**, whatever the environment chooses. -/
theorem exec_finishes (handle : Handler Op Ans σ χ) (p : Program Op Ans α) (s : σ)
    (stream : ℕ → χ) :
    ∃ n value, (exec handle p s ((List.range n).map stream)).1 = ret value := by
  induction p generalizing s stream with
  | ret value => exact ⟨0, value, rfl⟩
  | call op next ih =>
      obtain ⟨n, value, hn⟩ := ih _ (handle op (stream 0) s).2 fun k => stream (k + 1)
      refine ⟨n + 1, value, ?_⟩
      rw [List.range_succ_eq_map, List.map_cons, List.map_map]
      exact hn

/-- One program is left of another after an answer. -/
inductive LeftOf : Program Op Ans α → Program Op Ans α → Prop
  | answered (op : Op) (next : Ans op → Program Op Ans α) (answer : Ans op) :
      LeftOf (next answer) (call op next)

/-- Every answer leaves less of a program. -/
theorem wellFounded_leftOf : WellFounded (@LeftOf Op Ans α) := by
  refine ⟨fun p => ?_⟩
  induction p with
  | ret value => exact ⟨_, nofun⟩
  | call op next ih =>
      refine ⟨_, fun q hq => ?_⟩
      cases hq with
      | answered op next answer => exact ih answer

/-- A safe program can be run to its end, when every call that it makes has a choice that is
allowed. -/
theorem Safe.exists_run (h : Safe handle allow fit post p s)
    (hchoice : ∀ op t, fit op t → ∃ choice, allow op choice) :
    ∃ choices value, Allowed handle allow p s choices ∧
      (Program.exec handle p s choices).1 = ret value := by
  induction p generalizing s with
  | ret value => exact ⟨[], value, trivial, rfl⟩
  | call op next ih =>
      obtain ⟨choice, hallow⟩ := hchoice op s h.1
      obtain ⟨choices, value, hallowed, hret⟩ := ih _ (h.2 choice hallow)
      exact ⟨choice :: choices, value, ⟨hallow, hallowed⟩, hret⟩

end runs

/-! ## What can be reached -/

/-- Some choices that are allowed lead to a state, which may be one on the way. -/
def Reaches (handle : Handler Op Ans σ χ) (allow : Op → χ → Prop) (goal : σ → Prop) :
    Program Op Ans α → σ → Prop
  | ret _, s => goal s
  | call op next, s =>
      goal s ∨ ∃ choice, allow op choice ∧
        Reaches handle allow goal (next (handle op choice s).1) (handle op choice s).2

section reaches

variable {handle : Handler Op Ans σ χ} {allow : Op → χ → Prop} {goal : σ → Prop}
  {p : Program Op Ans α} {s : σ}

theorem reaches_of_goal (h : goal s) : Reaches handle allow goal p s := by
  cases p with
  | ret value => exact h
  | call op next => exact .inl h

/-- What the first of two programs can reach, both can. -/
theorem Reaches.bind (h : Reaches handle allow goal p s) (f : α → Program Op Ans β) :
    Reaches handle allow goal (p >>= f) s := by
  induction p generalizing s with
  | ret value => exact reaches_of_goal h
  | call op next ih =>
      obtain hgoal | ⟨choice, hallow, hnext⟩ := h
      · exact .inl hgoal
      · exact .inr ⟨choice, hallow, ih _ hnext⟩

/-- What can be reached is reached by a run on allowed choices. -/
theorem Reaches.exists_run (h : Reaches handle allow goal p s) :
    ∃ choices, Allowed handle allow p s choices ∧ goal (Program.exec handle p s choices).2 := by
  induction p generalizing s with
  | ret value => exact ⟨[], trivial, h⟩
  | call op next ih =>
      obtain hgoal | ⟨choice, hallow, hnext⟩ := h
      · exact ⟨[], trivial, hgoal⟩
      · obtain ⟨choices, hallowed, hgoal⟩ := ih _ hnext
        exact ⟨choice :: choices, ⟨hallow, hallowed⟩, hgoal⟩

end reaches

/-! ## Two runs -/

section related

variable {handle : Handler Op Ans σ χ} {handle' : Handler Op Ans τ χ}
  {R : σ → τ → Prop} {fit : Op → σ → Prop}

/-- **Two runs on the same choices** end alike when every call that the first one makes is answered
alike, which keeps the states related. -/
theorem exec_related {allow : Op → χ → Prop} {post : α → σ → Prop}
    (hcall : ∀ op choice s t, fit op s → allow op choice → R s t →
      (handle op choice s).1 = (handle' op choice t).1 ∧
        R (handle op choice s).2 (handle' op choice t).2)
    {p : Program Op Ans α} {s : σ} {t : τ} {choices : List χ} (h : R s t)
    (hsafe : Safe handle allow fit post p s) (hallowed : Allowed handle allow p s choices) :
    (exec handle p s choices).1 = (exec handle' p t choices).1 ∧
      R (exec handle p s choices).2 (exec handle' p t choices).2 := by
  induction choices generalizing p s t with
  | nil =>
      rw [exec_nil, exec_nil]
      exact ⟨rfl, h⟩
  | cons choice choices ih =>
      cases p with
      | ret value =>
          rw [exec_ret, exec_ret]
          exact ⟨rfl, h⟩
      | call op next =>
          obtain ⟨hanswer, hstate⟩ := hcall op choice s t hsafe.1 hallowed.1 h
          have hnext := ih hstate (hsafe.2 choice hallowed.1) hallowed.2
          unfold exec
          rw [← hanswer]
          exact hnext

end related

end Program

end OpenGuard.Lib
