import OpenGuard.Lib.Program
import OpenGuard.Windows.Firewall

/-!
# Process control

Processes come and go while the service terminates, suspends or resumes them, and a process id is
free again when its process is gone. The service makes one call after another; before each call any
processes may exit and others may start, also under ids that were in use.

* `ProcessTable`: the processes by their ids, with the moments at which they were created.
* `controlProcess`, `terminateProcessTree`: the programs.
* `processAnswer`: what their calls do. It also keeps what a run did: the table at the snapshot,
  what was opened and terminated, and the ids that were taken again.
-/

namespace OpenGuard.Windows

open OpenGuard.Lib

/-! ## Processes -/

/-- A process: when it was created, which tells it from every other one; the id of its parent at
that moment; and its image. -/
structure Process where
  created : ℕ
  parentPid : UInt32
  imagePath : String
  deriving DecidableEq, Inhabited

/-- The processes that run, by their ids, and the time, which is after their creation. -/
structure ProcessTable where
  processes : Table UInt32 Process
  clock : ℕ
  older : ∀ pid process, processes.lookup pid = some process → process.created < clock

/-- What other parties do: a process starts under an id that is free, or exits. -/
inductive ProcessEvent where
  | starts (pid parentPid : UInt32) (imagePath : String)
  | exits (pid : UInt32)
  deriving DecidableEq

namespace ProcessTable

/-- A process is gone. -/
def exit (pid : UInt32) (table : ProcessTable) : ProcessTable where
  processes := table.processes.erase pid
  clock := table.clock
  older other process h := by
    by_cases hsame : other = pid
    · rw [hsame, AList.lookup_erase] at h
      cases h
    · rw [AList.lookup_erase_ne hsame] at h
      exact table.older other process h

/-- A process is created. -/
def start (pid parentPid : UInt32) (imagePath : String) (table : ProcessTable) : ProcessTable where
  processes := table.processes.insert pid ⟨table.clock, parentPid, imagePath⟩
  clock := table.clock + 1
  older other process h := by
    obtain ⟨-, rfl⟩ | ⟨-, hold⟩ := Table.lookup_insert_eq_some_iff.mp h
    · exact Nat.lt_succ_self _
    · exact Nat.lt_succ_of_lt (table.older other process hold)

end ProcessTable

/-! ## The calls -/

/-- The calls of process control. A process that is opened is the one that has the id then. -/
inductive ProcessOp where
  | processImagePath (pid : UInt32)
  | samePath (left right : String)
  | listProcesses
  | openProcess (pid : UInt32)
  | terminateProcess (pid : UInt32) (process : Process)
  | listThreads
  | controlThread (thread : UInt32) (suspend : Bool)
  deriving DecidableEq

/-- The answers to the calls. An error of the system is its text. -/
abbrev ProcessOp.Answer : ProcessOp → Type
  | processImagePath _ => Except WindowsError String
  | samePath _ _ => Bool
  | listProcesses => Except String (List (UInt32 × UInt32))
  | openProcess _ => Except String Process
  | terminateProcess _ _ => Except String Unit
  | listThreads => Except String (List (UInt32 × UInt32))
  | controlThread _ _ => Bool

/-- The processes at the snapshot, and the ids with those of the parents that were listed. -/
structure ProcessSnapshot where
  processes : Table UInt32 Process
  relationships : List (UInt32 × UInt32)

/-- The processes, and what was done during the run: the snapshot, the ids that were opened for
termination, the ids that were taken by another process after the snapshot and before they were
opened, the processes that were terminated, and the threads that were suspended or resumed. -/
structure ProcessWorld where
  table : ProcessTable
  snapshot : Option ProcessSnapshot
  opened : List UInt32
  reused : List UInt32
  terminated : List (UInt32 × Process)
  controlled : List (UInt32 × Bool)

namespace ProcessWorld

/-- Nothing was done yet. -/
def initial (table : ProcessTable) : ProcessWorld := ⟨table, none, [], [], [], []⟩

/-- What an event makes of the world. -/
def event (world : ProcessWorld) : ProcessEvent → ProcessWorld
  | .starts pid parentPid imagePath =>
      if pid ∈ world.table.processes then world
      else
        { world with
          table := world.table.start pid parentPid imagePath
          reused :=
            if world.snapshot.isSome ∧ pid ∉ world.opened then world.reused ++ [pid]
            else world.reused }
  | .exits pid => { world with table := world.table.exit pid }

end ProcessWorld

/-- What the environment does in one call: the events before it, the failure of the call, how many
of the processes are listed, the threads, and the canonical paths of the files that exist. -/
structure ProcessChoice where
  events : List ProcessEvent
  imageFailure : Option WindowsError
  failure : Option String
  listed : ℕ
  threads : List (UInt32 × UInt32)
  canonicalize : String → Option String

/-- Nothing happens and nothing fails. -/
def ProcessChoice.quiet : ProcessChoice := ⟨[], none, none, 65536, [], fun _ => none⟩

/-- The error of an id that no process has. -/
def noProcess : String := "The parameter is incorrect. (0x80070057)"

/-- The error of a process that is gone. -/
def processGone : String := "Access is denied. (0x80070005)"

/-- The text of a process id. -/
def pidText (pid : UInt32) : String := toString pid.toNat

/-- What is listed of the processes.
Source: `response.rs`, `terminate_process_tree` -/
def relationships (listed : ℕ) (processes : Table UInt32 Process) : List (UInt32 × UInt32) :=
  ((processes.entries.take listed).take 65536).map fun entry => (entry.1, entry.2.parentPid)

/-- What the calls do, after the events. -/
def processCall : (op : ProcessOp) → ProcessChoice → ProcessWorld → op.Answer × ProcessWorld
  | .processImagePath pid, choice, world =>
      match choice.imageFailure, world.table.processes.lookup pid with
      | some error, _ => (.error error, world)
      | none, none =>
          (.error (.api ("open PID " ++ pidText pid ++ ": " ++ noProcess)), world)
      | none, some process => (.ok process.imagePath, world)
  | .samePath left right, choice, world => (samePath choice.canonicalize left right, world)
  | .listProcesses, choice, world =>
      match choice.failure with
      | some error => (.error error, world)
      | none =>
          let listed := relationships choice.listed world.table.processes
          (.ok listed, { world with snapshot := some ⟨world.table.processes, listed⟩ })
  | .openProcess pid, choice, world =>
      match choice.failure, world.table.processes.lookup pid with
      | some error, _ => (.error error, world)
      | none, none => (.error noProcess, world)
      | none, some process => (.ok process, { world with opened := pid :: world.opened })
  | .terminateProcess pid process, choice, world =>
      match choice.failure with
      | some error => (.error error, world)
      | none =>
          if world.table.processes.lookup pid = some process then
            (.ok (), { world with
              table := world.table.exit pid
              terminated := world.terminated ++ [(pid, process)] })
          else (.error processGone, world)
  | .listThreads, choice, world =>
      match choice.failure with
      | some error => (.error error, world)
      | none => (.ok choice.threads, world)
  | .controlThread thread suspend, choice, world =>
      match choice.failure with
      | some _ => (false, world)
      | none => (true, { world with controlled := world.controlled ++ [(thread, suspend)] })

/-- A call, before which the events happen. -/
def processAnswer : Program.Handler ProcessOp ProcessOp.Answer ProcessWorld ProcessChoice :=
  fun op choice world => processCall op choice (choice.events.foldl ProcessWorld.event world)

/-! ## The programs -/

/-- A program that may fail with an error of the Windows layer. -/
abbrev ProcessProgram := ExceptT WindowsError (Program ProcessOp ProcessOp.Answer)

/-- Source: `response.rs`, `ProcessControlResult` -/
structure ProcessControlResult where
  affectedProcesses : List UInt32
  affectedThreads : List UInt32
  detail : String
  deriving DecidableEq, Inhabited

section program

/-- One call. -/
def processAsk (op : ProcessOp) : Program ProcessOp ProcessOp.Answer op.Answer :=
  Program.perform op

/-- The path of the image of a process.
Source: `windows/lib.rs`, `process_image_path` -/
def processImagePath (pid : UInt32) : ProcessProgram String :=
  ExceptT.mk (processAsk (.processImagePath pid))

/-- A call whose error is put into a text. -/
def orApi {α : Type} (text : String) (p : Program ProcessOp ProcessOp.Answer (Except String α)) :
    ProcessProgram α := ExceptT.mk do
  match ← p with
  | .ok value => return .ok value
  | .error error => return .error (.api (text ++ ": " ++ error))

/-- Source: `response.rs`, `terminate` -/
def terminate (pid : UInt32) : ProcessProgram ProcessControlResult := do
  let process ← orApi ("open PID " ++ pidText pid ++ " for termination")
    (processAsk (.openProcess pid))
  orApi ("terminate PID " ++ pidText pid) (processAsk (.terminateProcess pid process))
  return ⟨[pid], [], "Terminated PID " ++ pidText pid⟩

/-- The loop over the threads; those that cannot be opened or controlled are passed over.
Source: `response.rs`, `control_threads` -/
def controlListed (pid : UInt32) (suspend : Bool) :
    List (UInt32 × UInt32) → Program ProcessOp ProcessOp.Answer (List UInt32)
  | [] => return []
  | (thread, owner) :: threads =>
      if owner = pid then do
        let controlled ← processAsk (.controlThread thread suspend)
        let affected ← controlListed pid suspend threads
        return if controlled then thread :: affected else affected
      else controlListed pid suspend threads

/-- Source: `response.rs`, `control_threads` -/
def controlThreads (pid : UInt32) (suspend : Bool) : ProcessProgram ProcessControlResult := do
  let threads ← orApi "enumerate threads" (processAsk .listThreads)
  let affected ← ExceptT.lift (controlListed pid suspend threads)
  if affected = [] then
    throw (.api ("no controllable threads found for PID " ++ pidText pid))
  else
    return ⟨[], affected, (if suspend then "Suspended" else "Resumed") ++ " " ++
      toString affected.length ++ " threads in PID " ++ pidText pid⟩

variable (ownPid : UInt32)

/-- Source: `response.rs`, `control_process` -/
def controlProcess (action : String) (pid : UInt32) (expectedPath : String) :
    ProcessProgram ProcessControlResult := do
  if pid ≤ 4 ∨ pid = ownPid ∨ expectedPath = "" then
    throw (.api "protected or incomplete process target")
  else
    let actual ← processImagePath pid
    if ← ExceptT.lift (processAsk (.samePath actual expectedPath)) then
      if action = "terminate" then terminate pid
      else if action = "suspend" then controlThreads pid true
      else if action = "resume" then controlThreads pid false
      else throw (.api ("unsupported process action " ++ action))
    else
      throw (.api ("process identity changed: expected " ++ expectedPath ++ ", found " ++ actual))

/-! ## The tree -/

/-- Where the search for the descendants stands. The last element that was pushed on the frontier is
its head. -/
structure TreeSearch where
  descendants : List UInt32
  frontier : List UInt32
  visited : List UInt32

/-- The loop over the relationships, which ends early when there are enough descendants.
Source: `response.rs`, `terminate_process_tree` -/
def visitChildren (parent : UInt32) : List (UInt32 × UInt32) → TreeSearch → TreeSearch
  | [], search => search
  | (child, childParent) :: listed, search =>
      if childParent = parent ∧ 4 < child ∧ child ∉ search.visited then
        let next : TreeSearch :=
          ⟨search.descendants ++ [child], child :: search.frontier, child :: search.visited⟩
        if 4096 ≤ next.descendants.length then next else visitChildren parent listed next
      else visitChildren parent listed search

/-- The loop over the frontier. Each process but the root is listed, so it ends within as many turns
as there are entries, and one.
Source: `response.rs`, `terminate_process_tree` -/
def searchTree (listed : List (UInt32 × UInt32)) : ℕ → TreeSearch → TreeSearch
  | 0, search => search
  | turns + 1, search =>
      match search.frontier with
      | [] => search
      | parent :: frontier =>
          let next := visitChildren parent listed { search with frontier }
          if 4096 ≤ next.descendants.length then next else searchTree listed turns next

/-- The descendants of a process, parents first.
Source: `response.rs`, `terminate_process_tree` -/
def descendants (root : UInt32) (listed : List (UInt32 × UInt32)) : List UInt32 :=
  (searchTree listed (listed.length + 1) ⟨[], [root], [root]⟩).descendants

/-- The loop over the descendants: those that were terminated, and the number of the others.
Source: `response.rs`, `terminate_process_tree` -/
def terminateDescendants : List UInt32 → Program ProcessOp ProcessOp.Answer (List UInt32 × ℕ)
  | [] => return ([], 0)
  | child :: children => do
      match ← (processImagePath child).run with
      | .error _ =>
          let (affected, skipped) ← terminateDescendants children
          return (affected, skipped + 1)
      | .ok path =>
          let result ← (controlProcess ownPid "terminate" child path).run
          let (affected, skipped) ← terminateDescendants children
          match result with
          | .ok _ => return (child :: affected, skipped)
          | .error _ => return (affected, skipped + 1)

/-- The processes are listed; the descendants are terminated, children first, and then the root.
Source: `response.rs`, `terminate_process_tree` -/
def terminateListed (pid : UInt32) (expectedPath : String) :
    ProcessProgram ProcessControlResult := do
  let listed ← orApi "enumerate process tree" (processAsk .listProcesses)
  let (affected, skipped) ← ExceptT.lift
    (terminateDescendants ownPid (descendants pid listed).reverse)
  let _ ← controlProcess ownPid "terminate" pid expectedPath
  return ⟨affected ++ [pid], [], "Terminated " ++ toString (affected.length + 1) ++
    " revalidated process(es) in the tree; " ++ toString skipped ++
    " inaccessible or changed descendants skipped"⟩

/-- Source: `response.rs`, `terminate_process_tree` -/
def terminateProcessTree (pid : UInt32) (expectedPath : String) :
    ProcessProgram ProcessControlResult := do
  let actual ← processImagePath pid
  if ← ExceptT.lift (processAsk (.samePath actual expectedPath)) then
    terminateListed ownPid pid expectedPath
  else throw (.api "root process identity changed")

end program

end OpenGuard.Windows
