import Mathlib.Algebra.Ring.Nat
import Mathlib.Data.List.Perm.Basic
import OpenGuard.Lib.Run

/-!
# Bounded mailboxes

Producers put messages into a queue of a given capacity, and one consumer takes them out. A producer
never waits: it counts a message that arrives, and then offers it to the queue, or counts it as
dropped when the queue is full, or as failed when it was no message. Between these accesses other
producers and the consumer can act.

* `accounts`: in every run, everything that was received is in one place.
* `none_dropped`: nothing is dropped as long as the queue and the messages that are still to be offered
  are within the capacity.
-/

namespace OpenGuard.Lib

variable {ι α : Type*}

/-! ## Lists of what is going on -/

section counting

variable {l : List α} {p : α → Bool} {place : ℕ} {a b : α}

/-- What is done is one less. -/
theorem countP_eraseIdx_add (h : l[place]? = some a) :
    (l.eraseIdx place).countP p + (if p a then 1 else 0) = l.countP p := by
  obtain ⟨hlt, rfl⟩ := List.getElem?_eq_some_iff.mp h
  rw [← (List.getElem_cons_eraseIdx_perm hlt).countP_eq p, List.countP_cons]

/-- What goes on differently is counted differently. -/
theorem countP_set_add (h : l[place]? = some a) :
    (l.set place b).countP p + (if p a then 1 else 0) = l.countP p + if p b then 1 else 0 := by
  obtain ⟨hlt, rfl⟩ := List.getElem?_eq_some_iff.mp h
  have hset := countP_eraseIdx_add (p := p) (List.getElem?_set_self (a := b) hlt)
  have hbefore := countP_eraseIdx_add (p := p) (List.getElem?_eq_getElem hlt)
  rw [List.eraseIdx_set_eq] at hset
  omega

end counting

/-! ## Mailboxes -/

/-- What a producer has still to do with what it has counted as received. -/
inductive Delivery (α : Type*) where
  | offer (message : α)
  | drop
  | fail

/-- A queue with its counters, the deliveries that are going on, what the queue has taken from whom,
and what was taken out. -/
structure Mailbox (ι α : Type*) where
  queue : List α
  received : ι → ℕ
  dropped : ι → ℕ
  failed : ι → ℕ
  working : List (ι × Delivery α)
  accepted : List (ι × α)
  taken : List α

/-- Something arrives at a producer, with the message that it is, if it is one; the delivery at some
place makes its next access; or a message is taken out. -/
inductive MailboxAction (ι α : Type*) where
  | arrive (producer : ι) (message : Option α)
  | proceed (place : ℕ)
  | take

namespace Mailbox

/-- Nothing has arrived. -/
def empty : Mailbox ι α := ⟨[], fun _ => 0, fun _ => 0, fun _ => 0, [], [], []⟩

variable [DecidableEq ι]

/-- One more for one producer. -/
def increment (counter : ι → ℕ) (producer : ι) : ι → ℕ :=
  fun other => if other = producer then counter other + 1 else counter other

/-- One access. -/
def step (capacity : ℕ) (s : Mailbox ι α) : MailboxAction ι α → Option (Mailbox ι α)
  | .arrive producer message =>
      some { s with
        received := increment s.received producer
        working := s.working ++ [(producer, message.elim .fail .offer)] }
  | .proceed place =>
      match s.working[place]? with
      | some (producer, .offer message) =>
          if s.queue.length < capacity then
            some { s with
              queue := s.queue ++ [message]
              accepted := s.accepted ++ [(producer, message)]
              working := s.working.eraseIdx place }
          else some { s with working := s.working.set place (producer, .drop) }
      | some (producer, .drop) =>
          some { s with
            dropped := increment s.dropped producer
            working := s.working.eraseIdx place }
      | some (producer, .fail) =>
          some { s with
            failed := increment s.failed producer
            working := s.working.eraseIdx place }
      | none => none
  | .take =>
      match s.queue with
      | message :: queue => some { s with queue, taken := s.taken ++ [message] }
      | [] => none

/-- Everything that was received is somewhere, and what was accepted comes out in order. -/
structure Accounts (capacity : ℕ) (s : Mailbox ι α) : Prop where
  received : ∀ producer, s.received producer = s.failed producer + s.dropped producer +
    (s.accepted.countP fun entry => entry.1 = producer) +
      s.working.countP fun entry => entry.1 = producer
  order : s.accepted.map Prod.snd = s.taken ++ s.queue
  bounded : s.queue.length ≤ capacity

section accounts

variable {capacity : ℕ} {s t : Mailbox ι α} {a : MailboxAction ι α} {as : List (MailboxAction ι α)}
  {place : ℕ} {entry : ι × Delivery α}

omit [DecidableEq ι] in
/-- A delivery that goes on is still one of its producer. -/
theorem countP_set_producer {p : ι → Bool} {after : Delivery α}
    (h : s.working[place]? = some entry) :
    (s.working.set place (entry.1, after)).countP (fun entry => p entry.1) =
      s.working.countP fun entry => p entry.1 :=
  Nat.add_right_cancel (countP_set_add (p := fun entry => p entry.1) h)

theorem Accounts.step (h : Accounts capacity s) (hstep : s.step capacity a = some t) :
    Accounts capacity t := by
  obtain ⟨hreceived, horder, hbounded⟩ := h
  cases a with
  | arrive producer message =>
      obtain rfl := Option.some.inj hstep
      refine ⟨fun other => ?_, horder, hbounded⟩
      simp only [increment, List.countP_append, List.countP_singleton, hreceived other]
      by_cases hother : other = producer
      · simp [hother]
        omega
      · simp [hother, Ne.symm hother]
  | proceed place =>
      simp only [Mailbox.step] at hstep
      split at hstep
      · rename_i producer message hentry
        split_ifs at hstep with hroom
        · obtain rfl := Option.some.inj hstep
          refine ⟨fun other => ?_, ?_, by simpa [Nat.succ_le_iff] using hroom⟩
          · have hcount := countP_eraseIdx_add (p := fun entry => decide (entry.1 = other)) hentry
            simp only [List.countP_append, List.countP_singleton, hreceived other, ← hcount]
            omega
          · rw [List.map_append, horder, List.append_assoc]
            rfl
        · obtain rfl := Option.some.inj hstep
          refine ⟨fun other => ?_, horder, hbounded⟩
          rw [hreceived other]
          exact congrArg _
            (countP_set_producer (p := fun producer => decide (producer = other)) hentry).symm
      rotate_right
      · cases hstep
      all_goals
        rename_i producer hentry
        obtain rfl := Option.some.inj hstep
        refine ⟨fun other => ?_, horder, hbounded⟩
        have hcount := countP_eraseIdx_add (p := fun entry => decide (entry.1 = other)) hentry
        simp only [increment, hreceived other, ← hcount]
        by_cases hother : other = producer
        · simp [hother]
          omega
        · simp [hother, Ne.symm hother]
  | take =>
      simp only [Mailbox.step] at hstep
      split at hstep
      · rename_i message queue hqueue
        obtain rfl := Option.some.inj hstep
        refine ⟨hreceived, ?_, ?_⟩
        · rw [horder, hqueue]
          simp
        · rw [hqueue] at hbounded
          exact Nat.le_of_succ_le hbounded
      · cases hstep

theorem accounts_empty : Accounts capacity (empty : Mailbox ι α) :=
  ⟨fun _ => rfl, rfl, Nat.zero_le _⟩

/-- **Everything that was received is in one place.** -/
theorem accounts (hrun : run (Mailbox.step capacity) empty as = some s) : Accounts capacity s :=
  run_invariant (fun _ _ _ h hstep => Accounts.step h hstep) accounts_empty hrun

/-- Only the consumer takes messages out. -/
theorem taken_proceed (hstep : s.step capacity (.proceed place) = some t) : t.taken = s.taken := by
  simp only [Mailbox.step] at hstep
  split at hstep
  · split_ifs at hstep
    all_goals
      obtain rfl := Option.some.inj hstep
      rfl
  · obtain rfl := Option.some.inj hstep
    rfl
  · obtain rfl := Option.some.inj hstep
    rfl
  · cases hstep

/-- Nothing was dropped, and nothing is about to be. -/
def NoneDropped (s : Mailbox ι α) : Prop :=
  (∀ producer, s.dropped producer = 0) ∧ ∀ entry ∈ s.working, entry.2 ≠ .drop

/-- A delivery that is offered while there is room for all is accepted. -/
theorem NoneDropped.step (h : NoneDropped s)
    (hroom : s.working.length + s.queue.length ≤ capacity) (hstep : s.step capacity a = some t) :
    NoneDropped t := by
  obtain ⟨hdropped, hworking⟩ := h
  have herase : ∀ place, ∀ entry ∈ s.working.eraseIdx place, entry.2 ≠ .drop :=
    fun place entry hmem => hworking entry (List.mem_of_mem_eraseIdx hmem)
  cases a with
  | arrive producer message =>
      obtain rfl := Option.some.inj hstep
      refine ⟨hdropped, fun entry hmem => ?_⟩
      rcases List.mem_append.mp hmem with hmem | hmem
      · exact hworking entry hmem
      · rw [List.mem_singleton.mp hmem]
        cases message <;> simp
  | proceed place =>
      simp only [Mailbox.step] at hstep
      split at hstep
      · rename_i producer message hentry
        obtain ⟨hlt, -⟩ := List.getElem?_eq_some_iff.mp hentry
        rw [if_pos (by omega)] at hstep
        obtain rfl := Option.some.inj hstep
        exact ⟨hdropped, herase place⟩
      · rename_i producer hentry
        exact absurd rfl (hworking _ (List.mem_of_getElem? hentry))
      · obtain rfl := Option.some.inj hstep
        exact ⟨hdropped, herase place⟩
      · cases hstep
  | take =>
      simp only [Mailbox.step] at hstep
      split at hstep
      · obtain rfl := Option.some.inj hstep
        exact ⟨hdropped, hworking⟩
      · cases hstep

/-- **Nothing is dropped while there is room** for the queue and for what is still to be offered. -/
theorem none_dropped
    (hmeet : StepsMeet (fun s _ => s.working.length + s.queue.length ≤ capacity)
      (Mailbox.step capacity) empty as)
    (hrun : run (Mailbox.step capacity) empty as = some s) : ∀ producer, s.dropped producer = 0 := by
  have hstart : NoneDropped (empty : Mailbox ι α) := ⟨fun _ => rfl, by simp [empty]⟩
  exact (run_invariant_of_meets (fun _ _ _ h hroom hstep => NoneDropped.step h hroom hstep)
    hstart hmeet hrun).1

end accounts

end Mailbox

end OpenGuard.Lib
