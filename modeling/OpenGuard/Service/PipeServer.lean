import Mathlib.Data.List.Induction
import Mathlib.Algebra.Ring.Nat
import OpenGuard.Lib.Run

/-!
# The pipe server and the request to stop

The server has one instance of its pipe at a time: it creates the instance, waits for a client, serves
it, and looks at the stop flag. The control handler of the service sets the flag from another thread,
and starts a thread that opens the pipe, so that the server does not wait for a client for ever.

* `after_stop`: after the flag is set the server takes at most one more client, and none when it is
  not on the way to one; and it makes at most four more steps.
* `waits_after_stop_iff`: when it neither stops nor goes on, the flag was set, and every waker tried to
  open the pipe, between the last look at the flag and the creation of the instance.
-/

namespace OpenGuard.Service

open OpenGuard.Lib

/-! ## The loop -/

/-- Where the server is: before the creation of the instance, waiting for a client, serving one, back
from `serve_connection`, about to look at the flag, and after the loop.
Source: `main.rs`, `run_pipe_loop` and `serve_connection` -/
inductive PipePhase where
  | between
  | listening
  | serving
  | ended (failed : Bool)
  | checking
  | stopped
  deriving DecidableEq

/-- The loop with what it shares: the wakers are the threads that have still to open the pipe. The
clients that were taken and the failures that were reported are counted. -/
structure PipeLoop where
  phase : PipePhase
  stopRequested : Bool
  wakers : ℕ
  connections : ℕ
  warnings : ℕ
  deriving DecidableEq

/-- The server makes its next step, with what the system answers; or the service is asked to stop; or
a waker or another client opens the pipe. -/
inductive PipeAction where
  | create (created : Bool)
  | refuse
  | serve (served : Bool)
  | report
  | check
  | stop
  | wake
  | connect
  deriving DecidableEq

namespace PipeAction

/-- The steps of the server itself. -/
def isServer : PipeAction → Bool
  | .create _ | .refuse | .serve _ | .report | .check => true
  | _ => false

/-- Somebody opens the pipe, or wants the service to stop. -/
def isOther (a : PipeAction) : Bool := !a.isServer

end PipeAction

/-- At the start of the loop. -/
def PipeLoop.start : PipeLoop := ⟨.between, false, 0, 0, 0⟩

/-- The pipe is opened. That succeeds only when there is an instance that no client has.
Source: `main.rs`, `wake_pipe_server` -/
def PipeLoop.opened (s : PipeLoop) : PipeLoop :=
  if s.phase = .listening then { s with phase := .serving, connections := s.connections + 1 } else s

/-- One step. A flag that is set when a failure comes back keeps it from being reported.
Source: `main.rs`, `run_pipe_loop`, `serve_connection` and the handler of `run_windows_service` -/
def pipeStep (once : Bool) (s : PipeLoop) : PipeAction → Option PipeLoop
  | .create created =>
      if s.phase = .between then
        some { s with phase := if created then .listening else .ended true }
      else none
  | .refuse => if s.phase = .listening then some { s with phase := .ended true } else none
  | .serve served =>
      if s.phase = .serving then some { s with phase := .ended !served } else none
  | .report =>
      match s.phase with
      | .ended failed =>
          some { s with
            phase := .checking
            warnings := if failed && !s.stopRequested then s.warnings + 1 else s.warnings }
      | _ => none
  | .check =>
      if s.phase = .checking then
        some { s with phase := if once || s.stopRequested then .stopped else .between }
      else none
  | .stop => some { s with stopRequested := true, wakers := s.wakers + 1 }
  | .wake => if 0 < s.wakers then some { s.opened with wakers := s.wakers - 1 } else none
  | .connect => some s.opened

section step

variable {once : Bool} {s t : PipeLoop} {a : PipeAction} {as : List PipeAction}

@[simp] theorem opened_stopRequested : s.opened.stopRequested = s.stopRequested := by
  unfold PipeLoop.opened
  split <;> rfl

@[simp] theorem opened_wakers : s.opened.wakers = s.wakers := by
  unfold PipeLoop.opened
  split <;> rfl

/-- Only a control request sets the flag, and nothing takes it back. -/
theorem stopRequested_step (h : pipeStep once s a = some t) :
    t.stopRequested = (s.stopRequested || a == .stop) := by
  cases a with
  | report =>
      cases hphase : s.phase <;> simp_all [pipeStep]
      rw [← h]
      simp
  | stop =>
      obtain rfl := Option.some.inj h
      simp
  | connect =>
      obtain rfl := Option.some.inj h
      simp
  | _ =>
      simp only [pipeStep, Option.ite_none_right_eq_some, Option.some.injEq] at h
      obtain ⟨-, rfl⟩ := h
      simp

/-- Every request starts a waker, which opens the pipe once. -/
theorem wakers_step (h : pipeStep once s a = some t) :
    t.wakers + [a].count .wake = s.wakers + [a].count .stop := by
  cases a with
  | report =>
      cases hphase : s.phase <;> simp_all [pipeStep]
      rw [← h]
  | stop =>
      obtain rfl := Option.some.inj h
      simp
  | connect =>
      obtain rfl := Option.some.inj h
      simp
  | wake =>
      simp only [pipeStep, Option.ite_none_right_eq_some, Option.some.injEq] at h
      obtain ⟨hpos, rfl⟩ := h
      simp
      omega
  | _ =>
      simp only [pipeStep, Option.ite_none_right_eq_some, Option.some.injEq] at h
      obtain ⟨-, rfl⟩ := h
      simp

end step

/-! ## After the request to stop -/

namespace PipePhase

/-- How many clients are taken before the next look at the flag. -/
def room : PipePhase → ℕ
  | .between | .listening => 1
  | _ => 0

/-- How many steps the server makes up to the next look at the flag. -/
def stepsLeft : PipePhase → ℕ
  | .between => 4
  | .listening | .serving => 3
  | .ended _ => 2
  | .checking => 1
  | .stopped => 0

end PipePhase

section afterStop

variable {once : Bool} {s t : PipeLoop} {a : PipeAction} {as : List PipeAction}

/-- What one step does to the clients that are taken, and to the steps that are left. -/
theorem step_after_stop (hstop : s.stopRequested = true) (h : pipeStep once s a = some t) :
    t.connections + t.phase.room ≤ s.connections + s.phase.room ∧
      t.phase.stepsLeft + [a].countP PipeAction.isServer ≤ s.phase.stepsLeft := by
  obtain ⟨phase, stopRequested, wakers, connections, warnings⟩ := s
  obtain rfl : stopRequested = true := hstop
  cases a with
  | create created =>
      cases phase <;> simp [pipeStep] at h
      cases created <;> obtain rfl := h <;> simp [PipePhase.room, PipePhase.stepsLeft,
        PipeAction.isServer]
  | check =>
      cases phase <;> simp [pipeStep] at h
      obtain rfl := h
      simp [PipePhase.room, PipePhase.stepsLeft, PipeAction.isServer]
  | wake =>
      simp only [pipeStep, Option.ite_none_right_eq_some, Option.some.injEq] at h
      obtain ⟨-, rfl⟩ := h
      cases phase <;> simp [PipeLoop.opened, PipePhase.room, PipePhase.stepsLeft,
        PipeAction.isServer]
  | connect =>
      obtain rfl := Option.some.inj h
      cases phase <;> simp [PipeLoop.opened, PipePhase.room, PipePhase.stepsLeft,
        PipeAction.isServer]
  | _ =>
      cases phase <;> simp [pipeStep] at h <;> obtain rfl := h <;>
        simp [PipePhase.room, PipePhase.stepsLeft, PipeAction.isServer]

theorem connections_after_stop (hstop : s.stopRequested = true)
    (hrun : run (pipeStep once) s as = some t) :
    t.connections ≤ s.connections + s.phase.room := by
  have hinv := run_invariant (I := fun u : PipeLoop => u.stopRequested = true ∧
    u.connections + u.phase.room ≤ s.connections + s.phase.room) ?_ ⟨hstop, le_rfl⟩ hrun
  · omega
  · rintro u a v ⟨hu, hle⟩ hstep
    refine ⟨by rw [stopRequested_step hstep, hu, Bool.true_or], ?_⟩
    exact Nat.le_trans (step_after_stop hu hstep).1 hle

theorem steps_after_stop (hstop : s.stopRequested = true)
    (hrun : run (pipeStep once) s as = some t) :
    t.phase.stepsLeft + as.countP PipeAction.isServer ≤ s.phase.stepsLeft := by
  induction as generalizing s with
  | nil =>
      rw [run_nil, Option.some_inj] at hrun
      simp [hrun]
  | cons a as ih =>
      obtain ⟨u, hu, hrun⟩ := run_cons_eq_some.mp hrun
      have hrest := ih (by rw [stopRequested_step hu, hstop, Bool.true_or]) hrun
      have hstep := (step_after_stop hstop hu).2
      rw [List.countP_cons]
      rw [List.countP_singleton] at hstep
      omega

/-- **After the request the server takes at most one more client**, and none when it is past the
point where it takes one; and it makes at most four more steps. -/
theorem after_stop (hstop : s.stopRequested = true) (hrun : run (pipeStep once) s as = some t) :
    t.connections ≤ s.connections + s.phase.room ∧
      as.countP PipeAction.isServer ≤ s.phase.stepsLeft :=
  ⟨connections_after_stop hstop hrun, Nat.le_of_add_left_le (steps_after_stop hstop hrun)⟩

/-- `after_stop` for a waker that finds the server listening. -/
theorem after_stop_woken :
    1 ≤ 0 + PipePhase.listening.room ∧
      [PipeAction.wake, .serve true, .report, .check].countP PipeAction.isServer ≤
        PipePhase.listening.stepsLeft :=
  @after_stop false ⟨.listening, true, 1, 0, 0⟩ ⟨.stopped, true, 0, 1, 0⟩
    [.wake, .serve true, .report, .check] rfl rfl

end afterStop

/-! ## The waker that comes too early -/

section waits

variable {once : Bool} {s t : PipeLoop} {a : PipeAction} {as : List PipeAction}

/-- Neither the server nor a waker can do anything: it takes another client to go on. -/
def Waits (once : Bool) (s : PipeLoop) : Prop :=
  s.phase ≠ .stopped ∧
    ∀ a : PipeAction, a = .wake ∨ a.isServer ∧ a ≠ .refuse → pipeStep once s a = none

theorem waits_iff : Waits once s ↔ s.phase = .listening ∧ s.wakers = 0 := by
  constructor
  · rintro ⟨hrunning, hnone⟩
    have hwake := hnone .wake (.inl rfl)
    have hserver : ∀ a : PipeAction, a.isServer → a ≠ .refuse → pipeStep once s a = none :=
      fun a ha hne => hnone a (.inr ⟨ha, hne⟩)
    refine ⟨?_, by simpa [pipeStep] using hwake⟩
    cases hphase : s.phase with
    | between => simpa [pipeStep, hphase] using hserver (.create true) rfl (by simp)
    | listening => rfl
    | serving => simpa [pipeStep, hphase] using hserver (.serve true) rfl (by simp)
    | ended failed => simpa [pipeStep, hphase] using hserver .report rfl (by simp)
    | checking => simpa [pipeStep, hphase] using hserver .check rfl (by simp)
    | stopped => exact absurd hphase hrunning
  · rintro ⟨hphase, hwakers⟩
    refine ⟨by simp [hphase], ?_⟩
    rintro a (rfl | ⟨ha, hne⟩)
    · simp [pipeStep, hwakers]
    · cases a <;> simp_all [pipeStep, PipeAction.isServer]

/-- The actions of a run end with some that are not the server's, and with all requests to stop among
them; the server was about to create the instance before them. -/
structure StopBetween (once : Bool) (before during : List PipeAction) : Prop where
  phase : ∃ s, run (pipeStep once) .start before = some s ∧ s.phase = .between
  before_stop : .stop ∉ before
  during_other : ∀ a ∈ during, a.isOther
  during_stop : .stop ∈ during

/-- The flag tells of the requests, and the wakers that are left are the requests whose waker has not
come yet. -/
theorem stop_invariant (hrun : run (pipeStep once) .start as = some t) :
    (t.stopRequested = true ↔ .stop ∈ as) ∧ t.wakers + as.count .wake = as.count .stop := by
  refine run_history_invariant (I := fun as t => (t.stopRequested = true ↔ .stop ∈ as) ∧
    t.wakers + as.count .wake = as.count .stop) ⟨by simp [PipeLoop.start], rfl⟩ ?_ hrun
  rintro as u a t ⟨hflag, hwakers⟩ hstep
  constructor
  · rw [stopRequested_step hstep, Bool.or_eq_true, hflag, beq_iff_eq, List.mem_append,
      List.mem_singleton, eq_comm (a := a)]
  · have h := wakers_step hstep
    rw [List.count_append, List.count_append]
    omega

/-- The server is before the creation only after a look at a flag that was not set, and as long as
nothing but the others act. -/
theorem step_to_between (hstep : pipeStep once s a = some t) (h : t.phase = .between) :
    a.isOther ∧ s.phase = .between ∨ a = .check ∧ s.stopRequested = false := by
  obtain ⟨phase, stopRequested, wakers, connections, warnings⟩ := s
  cases a with
  | check =>
      cases phase <;> simp [pipeStep] at hstep
      obtain rfl := hstep
      cases stopRequested <;> simp_all
  | create created =>
      cases phase <;> simp [pipeStep] at hstep
      cases created
      all_goals
        obtain rfl := hstep
        simp at h
  | wake =>
      simp only [pipeStep, Option.ite_none_right_eq_some, Option.some.injEq] at hstep
      obtain ⟨-, rfl⟩ := hstep
      cases phase <;> simp_all [PipeLoop.opened, PipeAction.isOther, PipeAction.isServer]
  | connect =>
      obtain rfl := Option.some.inj hstep
      cases phase <;> simp_all [PipeLoop.opened, PipeAction.isOther, PipeAction.isServer]
  | stop =>
      obtain rfl := Option.some.inj hstep
      exact .inl ⟨rfl, h⟩
  | _ =>
      cases phase <;> simp [pipeStep] at hstep
      all_goals
        obtain rfl := hstep
        simp at h

/-- The server listens only after the creation, and as long as nobody opens the pipe. -/
theorem step_to_listening (hstep : pipeStep once s a = some t) (h : t.phase = .listening) :
    a = .create true ∧ s.phase = .between ∨ a = .stop := by
  obtain ⟨phase, stopRequested, wakers, connections, warnings⟩ := s
  cases a with
  | check =>
      cases phase <;> simp [pipeStep] at hstep
      obtain rfl := hstep
      revert h
      dsimp only
      split_ifs <;> simp
  | create created =>
      cases phase <;> simp [pipeStep] at hstep
      cases created <;> obtain rfl := hstep <;> simp_all
  | wake =>
      simp only [pipeStep, Option.ite_none_right_eq_some, Option.some.injEq] at hstep
      obtain ⟨-, rfl⟩ := hstep
      cases phase <;> simp [PipeLoop.opened] at h
  | connect =>
      obtain rfl := Option.some.inj hstep
      cases phase <;> simp [PipeLoop.opened] at h
  | stop => exact .inr rfl
  | _ =>
      cases phase <;> simp [pipeStep] at hstep
      all_goals
        obtain rfl := hstep
        simp at h

/-- Whoever opens the pipe before the creation leaves the server where it is. -/
theorem phase_of_others (h : ∀ a ∈ as, PipeAction.isOther a) (hs : s.phase = .between)
    (hrun : run (pipeStep once) s as = some t) : t.phase = .between := by
  induction as generalizing s with
  | nil =>
      rw [run_nil, Option.some_inj] at hrun
      exact hrun ▸ hs
  | cons a as ih =>
      obtain ⟨u, hu, hrun⟩ := run_cons_eq_some.mp hrun
      refine ih (fun b hb => h b (List.mem_cons_of_mem a hb)) ?_ hrun
      have ha := h a List.mem_cons_self
      cases a with
      | stop =>
          obtain rfl := Option.some.inj hu
          exact hs
      | wake =>
          simp only [pipeStep, Option.ite_none_right_eq_some, Option.some.injEq] at hu
          obtain ⟨-, rfl⟩ := hu
          simp [PipeLoop.opened, hs]
      | connect =>
          obtain rfl := Option.some.inj hu
          simp [PipeLoop.opened, hs]
      | _ => cases ha

/-- Before the creation with the flag set, and listening after it. -/
theorem stopBetween_invariant (hrun : run (pipeStep once) .start as = some t) (hstop : .stop ∈ as) :
    (t.phase = .between → ∃ before during, as = before ++ during ∧ StopBetween once before during) ∧
      (t.phase = .listening → t.wakers = 0 → ∃ before during,
        as = before ++ (during ++ [.create true]) ∧ StopBetween once before during) := by
  induction as using List.reverseRecOn generalizing t with
  | nil => simp at hstop
  | append_singleton as a ih =>
      obtain ⟨u, hu, hlast⟩ := run_append_eq_some.mp hrun
      obtain ⟨v, hv, hlast⟩ := run_cons_eq_some.mp hlast
      obtain rfl : v = t := by simpa using hlast
      constructor
      · intro hphase
        obtain ⟨hother, hbetween⟩ | ⟨rfl, hflag⟩ := step_to_between hv hphase
        · by_cases hbefore : .stop ∈ as
          · obtain ⟨before, during, rfl, h⟩ := (ih hu hbefore).1 hbetween
            refine ⟨before, during ++ [a], (List.append_assoc _ _ _), h.phase, h.before_stop, ?_, ?_⟩
            · simpa [or_imp, forall_and] using ⟨h.during_other, hother⟩
            · exact List.mem_append_left _ h.during_stop
          · -- the first request, and so nothing of the others before it counts
            obtain rfl : a = .stop := by simpa [hbefore, eq_comm] using hstop
            exact ⟨as, [.stop], rfl, ⟨u, hu, hbetween⟩, hbefore, by simp [PipeAction.isOther,
              PipeAction.isServer], by simp⟩
        · have hmem : .stop ∈ as := by simpa using hstop
          rw [(stop_invariant hu).1.mpr hmem] at hflag
          cases hflag
      · intro hphase hwakers
        obtain ⟨rfl, hbetween⟩ | rfl := step_to_listening hv hphase
        · have hmem : .stop ∈ as := by simpa using hstop
          obtain ⟨before, during, rfl, h⟩ := (ih hu hmem).1 hbetween
          exact ⟨before, during, List.append_assoc _ _ _, h⟩
        · obtain rfl := Option.some.inj hv
          simp at hwakers

/-- **The service is asked to stop and waits for another client**, just when all requests, and all
attempts of their wakers, came between a look at the flag and the creation of the instance. -/
theorem waits_after_stop_iff (hrun : run (pipeStep once) .start as = some t) :
    t.stopRequested = true ∧ Waits once t ↔
      ∃ before during, as = before ++ (during ++ [.create true]) ∧ StopBetween once before during ∧
        during.count .stop = during.count .wake := by
  obtain ⟨hflag, hwakers⟩ := stop_invariant hrun
  rw [waits_iff]
  constructor
  · rintro ⟨hstop, hphase, hnone⟩
    obtain ⟨before, during, rfl, h⟩ :=
      (stopBetween_invariant hrun (hflag.mp hstop)).2 hphase hnone
    refine ⟨before, during, rfl, h, ?_⟩
    obtain ⟨s, hs, -⟩ := h.phase
    have hbefore := (stop_invariant hs).2
    rw [List.count_eq_zero.mpr h.before_stop] at hbefore
    simp only [List.count_append, List.count_eq_zero.mpr h.before_stop, hnone] at hwakers
    simp at hwakers
    omega
  · rintro ⟨before, during, rfl, h, hcount⟩
    obtain ⟨s, hs, hbetween⟩ := h.phase
    have hbefore := (stop_invariant hs).2
    rw [List.count_eq_zero.mpr h.before_stop] at hbefore
    obtain ⟨s', hs', hrest⟩ := run_append_eq_some.mp hrun
    obtain rfl : s = s' := Option.some.inj (hs.symm.trans hs')
    obtain ⟨u, hu, hlast⟩ := run_append_eq_some.mp hrest
    have hphase := phase_of_others h.during_other hbetween hu
    obtain rfl : { u with phase := .listening } = t := by
      simpa [run, pipeStep, hphase] using hlast
    refine ⟨hflag.mpr (by simp [h.during_stop]), rfl, ?_⟩
    change u.wakers = 0
    simp only [List.count_append, List.count_eq_zero.mpr h.before_stop] at hwakers
    simp at hwakers
    omega

/-- `waits_after_stop_iff` for a waker that comes before the instance. -/
theorem waits_after_stop_early : Waits false ⟨.listening, true, 0, 0, 0⟩ :=
  ((@waits_after_stop_iff false _ [.stop, .wake, .create true] rfl).mpr
    ⟨[], [.stop, .wake], rfl,
      ⟨⟨.start, rfl, rfl⟩, by simp, by simp [PipeAction.isOther, PipeAction.isServer], by simp⟩,
      rfl⟩).2

end waits

end OpenGuard.Service
