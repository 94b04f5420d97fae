import OpenGuard.Lib.Table
import OpenGuard.Lib.Text
import OpenGuard.Windows.Error

/-!
# Disabling and restoring a registration

Two system tools change what starts with the machine: `sc` the start type of a service, `schtasks`
whether a task is enabled. What they answer is chosen by the environment; when one reports success,
it has changed what it was asked to change.

* `setPersistenceEnabled`: the change.
* `setPersistenceEnabled_ok`, `setPersistenceEnabled_error`: what it leaves.
* `restorable_iff`: when a registration that was disabled and restored is as it was.
-/

namespace OpenGuard.Windows

open OpenGuard.Lib

/-- The start configuration of a service: its `Start` value, if it has one, and whether the start is
delayed. -/
structure ServiceStart where
  start : Option UInt32
  delayed : Bool
  deriving DecidableEq, Inhabited

/-- The services by the names of their keys, and the tasks, enabled or not, by their paths. -/
structure StartSystem where
  services : Table String ServiceStart
  tasks : Table String Bool

/-- How the tool fails, if it does, and what `sc` makes of a delayed start for an argument. -/
structure StartTools where
  failure : Option String
  delayed : String → Bool → Bool

/-- What a tool is asked to change. -/
inductive StartTarget where
  | service (name : String)
  | task (path : String)
  deriving DecidableEq, Inhabited

/-- The start configuration of a registration. -/
inductive StartConfiguration where
  | service (start : ServiceStart)
  | task (enabled : Bool)
  deriving DecidableEq, Inhabited

/-- The configuration of a target that exists. -/
def StartSystem.configuration (system : StartSystem) : StartTarget → Option StartConfiguration
  | .service name => (system.services.lookup name).map .service
  | .task path => (system.tasks.lookup path).map .task

/-- The `Start` value that an argument of `sc config` stands for. -/
def startValue (argument : String) : UInt32 :=
  if argument = "boot" then 0
  else if argument = "system" then 1
  else if argument = "auto" then 2
  else if argument = "demand" then 3
  else 4

/-- Source: `response.rs`, `set_persistence_enabled` -/
def startArgument (enabled : Bool) (previousState : Option String) : String :=
  if enabled then
    let previous := previousState.getD "manual"
    if previous = "automatic" then "auto"
    else if previous = "boot" then "boot"
    else if previous = "system" then "system"
    else "demand"
  else "disabled"

/-- The checks, and the target that they find.
Source: `response.rs`, `set_persistence_enabled` -/
def startTarget (category location : String) : Except WindowsError StartTarget :=
  if location = "" ∨ 1024 < location.utf8ByteSize ∨
      location.toList.any (fun c => c == '\x00' || c == '\r' || c == '\n') then
    .error (.api "invalid persistence location")
  else if category = "service" then
    let name := rsplitNext (· == '\\') location
    if name = "" then .error (.api "service location has no key name") else .ok (.service name)
  else if category = "scheduled_task" then
    if startsWith location "\\" then .ok (.task location)
    else .error (.api "scheduled-task path must be absolute")
  else .error (.api ("automatic response is not supported for " ++ category ++ " persistence"))

/-- Source: `response.rs`, `set_persistence_enabled` -/
def StartTarget.toolAction (enabled : Bool) : StartTarget → String
  | service _ => if enabled then "restore service startup" else "disable service startup"
  | task _ => if enabled then "restore scheduled task" else "disable scheduled task"

/-- Source: `response.rs`, `set_persistence_enabled` -/
def setPersistenceEnabled (tools : StartTools) (category location : String) (enabled : Bool)
    (previousState : Option String) (system : StartSystem) :
    Except WindowsError Unit × StartSystem :=
  match startTarget category location with
  | .error error => (.error error, system)
  | .ok target =>
      match tools.failure with
      | some detail => (.error (.api (target.toolAction enabled ++ ": " ++ detail)), system)
      | none =>
          match target with
          | .service name =>
              match system.services.lookup name with
              | none =>
                  (.error (.api (target.toolAction enabled ++
                    ": The specified service does not exist as an installed service.")), system)
              | some service =>
                  let argument := startArgument enabled previousState
                  (.ok (), { system with
                    services := system.services.insert name
                      ⟨some (startValue argument), tools.delayed argument service.delayed⟩ })
          | .task path =>
              match system.tasks.lookup path with
              | none =>
                  (.error (.api (target.toolAction enabled ++
                    ": ERROR: The system cannot find the file specified.")), system)
              | some _ => (.ok (), { system with tasks := system.tasks.insert path enabled })

/-- The configuration after a change. -/
def StartConfiguration.changed (tools : StartTools) (enabled : Bool)
    (previousState : Option String) :
    StartConfiguration → StartConfiguration
  | service start =>
      let argument := startArgument enabled previousState
      service ⟨some (startValue argument), tools.delayed argument start.delayed⟩
  | task _ => task enabled

section changes

variable {tools : StartTools} {category location : String} {enabled : Bool}
  {previousState : Option String} {system after : StartSystem} {error : WindowsError}

/-- A change changes its target, which exists, and nothing else. -/
theorem setPersistenceEnabled_ok
    (h : setPersistenceEnabled tools category location enabled previousState system =
      (.ok (), after)) :
    ∃ target before, startTarget category location = .ok target ∧
      system.configuration target = some before ∧
      after.configuration target = some (before.changed tools enabled previousState) ∧
      ∀ other ≠ target, after.configuration other = system.configuration other := by
  unfold setPersistenceEnabled at h
  cases htarget : startTarget category location with
  | error error => simp [htarget] at h
  | ok target =>
      cases hfailure : tools.failure with
      | some detail => simp [htarget, hfailure] at h
      | none =>
          rw [htarget, hfailure] at h
          cases target with
          | service name =>
              dsimp only at h
              cases hrow : system.services.lookup name with
              | none => simp [hrow] at h
              | some service =>
                  rw [hrow] at h
                  obtain ⟨-, rfl⟩ := Prod.mk.inj h
                  refine ⟨.service name, .service service, rfl, ?_, ?_, fun other hother => ?_⟩
                  · rw [StartSystem.configuration, hrow, Option.map_some]
                  · rw [StartSystem.configuration, AList.lookup_insert, Option.map_some]
                    rfl
                  · cases other with
                    | task path => rfl
                    | service other =>
                        rw [StartSystem.configuration, StartSystem.configuration,
                          AList.lookup_insert_ne fun hsame => hother (congrArg _ hsame)]
          | task path =>
              dsimp only at h
              cases hrow : system.tasks.lookup path with
              | none => simp [hrow] at h
              | some was =>
                  rw [hrow] at h
                  obtain ⟨-, rfl⟩ := Prod.mk.inj h
                  refine ⟨.task path, .task was, rfl, ?_, ?_, fun other hother => ?_⟩
                  · rw [StartSystem.configuration, hrow, Option.map_some]
                  · rw [StartSystem.configuration, AList.lookup_insert, Option.map_some]
                    rfl
                  · cases other with
                    | service name => rfl
                    | task other =>
                        rw [StartSystem.configuration, StartSystem.configuration,
                          AList.lookup_insert_ne fun hsame => hother (congrArg _ hsame)]

/-- A change that fails changes nothing. -/
theorem setPersistenceEnabled_error
    (h : setPersistenceEnabled tools category location enabled previousState system =
      (.error error, after)) : after = system := by
  unfold setPersistenceEnabled at h
  cases htarget : startTarget category location with
  | error error =>
      rw [htarget] at h
      exact (Prod.mk.inj h).2.symm
  | ok target =>
      cases hfailure : tools.failure with
      | some detail =>
          rw [htarget, hfailure] at h
          exact (Prod.mk.inj h).2.symm
      | none =>
          rw [htarget, hfailure] at h
          cases target with
          | service name =>
              dsimp only at h
              cases hrow : system.services.lookup name with
              | none =>
                  rw [hrow] at h
                  exact (Prod.mk.inj h).2.symm
              | some service => simp [hrow] at h
          | task path =>
              dsimp only at h
              cases hrow : system.tasks.lookup path with
              | none =>
                  rw [hrow] at h
                  exact (Prod.mk.inj h).2.symm
              | some was => simp [hrow] at h

end changes

/-! ## There and back -/

/-- The `Start` value that a state is restored to. -/
def restoredStart (state : String) : UInt32 :=
  if state = "automatic" then 2
  else if state = "boot" then 0
  else if state = "system" then 1
  else 3

/-- The registration starts in the way that its state stands for: a service has the value that the
state is restored to, and the tools leave its delay; a task is enabled. -/
def StartConfiguration.Restorable (off on : StartTools) (state : String) :
    StartConfiguration → Prop
  | service start =>
      start.start = some (restoredStart state) ∧
        on.delayed (startArgument true (some state)) (off.delayed "disabled" start.delayed) =
          start.delayed
  | task enabled => enabled = true

theorem startValue_startArgument (state : String) :
    startValue (startArgument true (some state)) = restoredStart state := by
  unfold startArgument restoredStart
  simp only [if_true, Option.getD_some]
  split_ifs <;> rfl

/-- **Disabled and restored**: the configuration is what it was just when it is restorable. -/
theorem restorable_iff {off on : StartTools} {state : String} {before : StartConfiguration} :
    (before.changed off false none).changed on true (some state) = before ↔
      before.Restorable off on state := by
  cases before with
  | service start =>
      obtain ⟨value, delayed⟩ := start
      unfold StartConfiguration.changed StartConfiguration.Restorable
      simp only [StartConfiguration.service.injEq, ServiceStart.mk.injEq]
      rw [startValue_startArgument]
      exact and_congr_left' eq_comm
  | task enabled =>
      unfold StartConfiguration.changed StartConfiguration.Restorable
      rw [StartConfiguration.task.injEq]
      exact eq_comm

end OpenGuard.Windows
