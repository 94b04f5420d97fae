import OpenGuard.Windows.TreeOrder

/-!
# Refused terminations of a tree

`control_process` refuses ids that are protected and a path that is empty; for the root of a tree it
is asked after the descendants. The processes change only by the calls here, which may fail.

* `calls_terminateProcessTree`: a protected id is never terminated.
* `safe_unmatched`, `safe_spared`: when a refused termination terminates nothing.
* `reaches_termination`: when it can terminate a descendant.
* `tree_refusal_iff`: the two together.
-/

namespace OpenGuard.Windows

open OpenGuard.Lib OpenGuard.Lib.Program

/-- The system's processes and the service.
Source: `response.rs`, `control_process` -/
def Protected (ownPid pid : UInt32) : Prop := pid ≤ 4 ∨ pid = ownPid

/-! ## Protected processes -/

section spared

variable {ownPid pid root : UInt32} {path : String} {α : Type}

/-- Terminating a protected process is the call that is never made. -/
def Spares (ownPid : UInt32) : ProcessOp → Prop
  | .terminateProcess pid _ => ¬ Protected ownPid pid
  | _ => True

theorem calls_orApi {kind : ProcessOp → Prop} {text : String}
    {p : Program ProcessOp ProcessOp.Answer (Except String α)} (h : Calls kind p) :
    Calls kind (orApi text p).run := by
  refine Calls.bind h fun r => ?_
  cases r <;> trivial

theorem calls_controlProcess (ownPid pid : UInt32) (path : String) :
    Calls (Spares ownPid) (controlProcess ownPid "terminate" pid path).run := by
  unfold controlProcess
  rw [if_pos rfl]
  split_ifs with hprotected
  · trivial
  refine Calls.tryBind (calls_perform.mpr trivial) fun actual => ?_
  refine Calls.liftBind (calls_perform.mpr trivial) fun same => ?_
  split_ifs
  · refine Calls.tryBind (calls_orApi (calls_perform.mpr trivial)) fun process => ?_
    refine Calls.tryBind (calls_orApi (calls_perform.mpr ?_)) fun _ => trivial
    exact fun h => hprotected (h.elim .inl fun hown => .inr (.inl hown))
  · trivial

theorem calls_terminateDescendants (ownPid : UInt32) (children : List UInt32) :
    Calls (Spares ownPid) (terminateDescendants ownPid children) := by
  induction children with
  | nil => trivial
  | cons child children ih =>
      have hnext : ∀ post : List UInt32 × ℕ → List UInt32 × ℕ, Calls (Spares ownPid)
          (terminateDescendants ownPid children >>= fun counts => pure (post counts)) :=
        fun post => ih.bind fun _ => trivial
      refine ⟨trivial, fun answer => ?_⟩
      cases answer with
      | error error => exact hnext _
      | ok path =>
          refine (calls_controlProcess ownPid child path).bind fun result => ?_
          cases result <;> exact hnext _

/-- **No protected process is terminated**, whatever is answered. -/
theorem calls_terminateProcessTree (ownPid root : UInt32) (path : String) :
    Calls (Spares ownPid) (terminateProcessTree ownPid root path).run := by
  unfold terminateProcessTree
  refine Calls.tryBind (calls_perform.mpr trivial) fun actual => ?_
  refine Calls.liftBind (calls_perform.mpr trivial) fun same => ?_
  split_ifs
  · refine Calls.tryBind (calls_orApi (calls_perform.mpr trivial)) fun listed => ?_
    refine Calls.liftBind (calls_terminateDescendants ownPid _) fun counts => ?_
    exact Calls.tryBind (calls_controlProcess ownPid root path) fun _ => trivial
  · trivial

/-- Nobody protected was terminated. -/
def ProtectedSpared (ownPid : UInt32) (world : ProcessWorld) : Prop :=
  ∀ victim ∈ world.terminated, ¬ Protected ownPid victim.1

theorem protectedSpared_call {op : ProcessOp} {choice : ProcessChoice} {world : ProcessWorld}
    (hop : Spares ownPid op) (h : ProtectedSpared ownPid world) :
    ProtectedSpared ownPid (processAnswer op choice world).2 := by
  have hevents : ProtectedSpared ownPid (choice.events.foldl ProcessWorld.event world) := by
    unfold ProtectedSpared
    rwa [events_terminated]
  by_cases hterminates : ∃ pid process, op = .terminateProcess pid process
  · obtain ⟨pid, process, rfl⟩ := hterminates
    unfold processAnswer processCall
    dsimp only
    split
    · exact hevents
    split_ifs
    · intro victim hvictim
      obtain hold | hnew := List.mem_append.mp hvictim
      · exact hevents victim hold
      · rw [List.mem_singleton.mp hnew]
        exact hop
    · exact hevents
  · have hother : ∀ pid process, op ≠ .terminateProcess pid process :=
      fun pid process h => hterminates ⟨pid, process, h⟩
    unfold ProtectedSpared processAnswer
    rw [(terminated_call hother choice _).1]
    exact hevents

/-- In every run, whatever happens between the calls, nobody protected is terminated. -/
theorem protectedSpared_run (ownPid root : UInt32) (path : String) (table : ProcessTable)
    (choices : List ProcessChoice) :
    ProtectedSpared ownPid (exec processAnswer (terminateProcessTree ownPid root path).run
      (.initial table) choices).2 := by
  have hstart : ProtectedSpared ownPid (.initial table) :=
    fun victim hvictim => absurd hvictim List.not_mem_nil
  have hsafe : Safe processAnswer AnyChoice (fun _ world => ProtectedSpared ownPid world)
      (fun _ world => ProtectedSpared ownPid world)
      (terminateProcessTree ownPid root path).run (.initial table) :=
    (calls_terminateProcessTree ownPid root path).safe
      (fun _ _ _ hop h => protectedSpared_call hop h) hstart
  exact hsafe.invariant (allowed_of_forall (fun _ _ => trivial) _ _ choices) (fun _ _ h => h)
    fun _ _ h => h

end spared

/-! ## Refused roots -/

/-- No other party acts, and paths are canonicalized in one way. The calls may fail. -/
def Alone (canonicalize : String → Option String) (_ : ProcessOp) (choice : ProcessChoice) :
    Prop :=
  choice.events = [] ∧ choice.canonicalize = canonicalize

/-- The process of an id has the path. -/
def Matches (canonicalize : String → Option String) (table : ProcessTable) (pid : UInt32)
    (path : String) : Prop :=
  ∃ process, table.processes.lookup pid = some process ∧
    samePath canonicalize process.imagePath path = true

/-- The termination is to be refused: the root is protected, or the path is empty or not that of the
root. -/
def Refused (ownPid : UInt32) (canonicalize : String → Option String) (table : ProcessTable)
    (root : UInt32) (path : String) : Prop :=
  Protected ownPid root ∨ path = "" ∨ ¬ Matches canonicalize table root path

/-- The descendant is neither the service nor without a path. -/
def Terminable (ownPid : UInt32) (table : ProcessTable) (child : UInt32) : Prop :=
  child ≠ ownPid ∧ ∃ process, table.processes.lookup child = some process ∧ process.imagePath ≠ ""

/-- The root is not protected and the path is not empty; or the path is not that of the root; or in
whatever part of the processes is listed, no descendant of the root can be terminated. -/
def RefusalKept (ownPid : UInt32) (canonicalize : String → Option String) (table : ProcessTable)
    (root : UInt32) (path : String) : Prop :=
  ¬ (Protected ownPid root ∨ path = "") ∨ ¬ Matches canonicalize table root path ∨
    ∀ listed, ∀ child ∈ descendants root (relationships listed table.processes),
      ¬ Terminable ownPid table child

/-- Nobody was terminated and the processes are the same. -/
def Still (table : ProcessTable) (world : ProcessWorld) : Prop :=
  world.table = table ∧ world.terminated = []

/-- A refused termination returns an error, and at no moment of it was anybody terminated. -/
def RefusesSafely (ownPid : UInt32) (canonicalize : String → Option String) (table : ProcessTable)
    (root : UInt32) (path : String) : Prop :=
  Refused ownPid canonicalize table root path → ∀ choices,
    let program := (terminateProcessTree ownPid root path).run
    Allowed processAnswer (Alone canonicalize) program (.initial table) choices →
      (exec processAnswer program (.initial table) choices).2.terminated = [] ∧
        ∀ value, (exec processAnswer program (.initial table) choices).1 = .ret value →
          ∃ error, value = .error error

section refusal

variable {ownPid root pid : UInt32} {canonicalize : String → Option String} {table : ProcessTable}
  {world : ProcessWorld} {path : String} {α : Type}

/-- Without other parties, a call that is not a termination leaves everything still. -/
theorem Still.call (h : Still table world) {op : ProcessOp} {choice : ProcessChoice}
    (hchoice : Alone canonicalize op choice)
    (hop : ∀ pid process, op ≠ .terminateProcess pid process) :
    Still table (processAnswer op choice world).2 := by
  unfold processAnswer
  rw [hchoice.1, List.foldl_nil]
  obtain ⟨hterminated, htable⟩ := terminated_call hop choice world
  exact ⟨htable.trans h.1, hterminated.trans h.2⟩

/-- A path that is read is that of the process. -/
theorem lookup_of_imagePath (h : Still table world) {choice : ProcessChoice}
    (hchoice : Alone canonicalize (.processImagePath pid) choice)
    (hanswer : (processAnswer (.processImagePath pid) choice world).1 = .ok path) :
    ∃ process, table.processes.lookup pid = some process ∧ process.imagePath = path := by
  unfold processAnswer processCall at hanswer
  rw [hchoice.1, List.foldl_nil] at hanswer
  dsimp only at hanswer
  rw [h.1] at hanswer
  split at hanswer
  · cases hanswer
  · cases hanswer
  · rename_i process _ hlookup
    cases hanswer
    exact ⟨process, hlookup, rfl⟩

/-- Whatever holds before the processes are terminated, the end is an error and nobody was
terminated. -/
abbrev StillRefused (table : ProcessTable) (result : Except WindowsError α)
    (after : ProcessWorld) : Prop :=
  Still table after ∧ ∃ error, result = .error error

/-- A path that is not that of the root is refused at once. -/
theorem safe_unmatched (h : Still table world) (hmatch : ¬ Matches canonicalize table root path) :
    Safe processAnswer (Alone canonicalize) (fun _ => Still table)
      (StillRefused table) (terminateProcessTree ownPid root path).run world := by
  unfold terminateProcessTree
  refine safe_tryBind.mpr ⟨h, fun first hfirst => ?_⟩
  have himage := h.call hfirst nofun
  cases hanswer : (processAnswer (.processImagePath root) first world).1 with
  | error error => exact ⟨himage, error, rfl⟩
  | ok actual =>
      obtain ⟨process, hlookup, rfl⟩ := lookup_of_imagePath h hfirst hanswer
      refine safe_liftBind.mpr (safe_perform.mpr ⟨himage, fun choice hchoice => ?_⟩)
      have hpath := himage.call hchoice nofun
      have hdiffers : (processAnswer (.samePath process.imagePath path) choice
          (processAnswer (.processImagePath root) first world).2).1 = false := by
        show samePath choice.canonicalize process.imagePath path = false
        rw [hchoice.2, ← Bool.not_eq_true]
        exact fun hsame => hmatch ⟨process, hlookup, hsame⟩
      rw [hdiffers]
      exact ⟨hpath, _, rfl⟩

/-- What is controlled without being protected has a path. -/
theorem safe_controlProcess_refused (h : Still table world)
    (hrefused : Protected ownPid pid ∨ path = "") :
    Safe processAnswer (Alone canonicalize) (fun _ => Still table)
      (StillRefused table) (controlProcess ownPid "terminate" pid path).run world := by
  unfold controlProcess
  have hguard : pid ≤ 4 ∨ pid = ownPid ∨ path = "" := or_assoc.mp hrefused
  rw [if_pos hguard]
  exact ⟨h, _, rfl⟩

/-- **Descendants that are the service or have no path** are not terminated. -/
theorem safe_spared {children : List UInt32} (h : Still table world)
    (hspared : ∀ child ∈ children, ¬ Terminable ownPid table child) :
    Safe processAnswer (Alone canonicalize) (fun _ => Still table)
      (fun _ => Still table) (terminateDescendants ownPid children) world := by
  induction children generalizing world with
  | nil => exact h
  | cons child children ih =>
      obtain ⟨hchild, hchildren⟩ := List.forall_mem_cons.mp hspared
      have hnext : ∀ {after}, Still table after → ∀ {post : List UInt32 × ℕ → List UInt32 × ℕ},
          Safe processAnswer (Alone canonicalize) (fun _ => Still table)
            (fun _ => Still table)
            (terminateDescendants ownPid children >>= fun counts => pure (post counts)) after :=
        fun hafter => (ih hafter hchildren).bind fun _ _ hend => hend
      refine ⟨h, fun choice hchoice => ?_⟩
      have himage := h.call hchoice nofun
      cases hanswer : (processAnswer (.processImagePath child) choice world).1 with
      | error error => exact hnext himage
      | ok path =>
          obtain ⟨process, hlookup, rfl⟩ := lookup_of_imagePath h hchoice hanswer
          have hrefused : Protected ownPid child ∨ process.imagePath = "" := by
            by_contra hnot
            rw [not_or] at hnot
            exact hchild ⟨fun hown => hnot.1 (.inr hown), process, hlookup, hnot.2⟩
          refine (safe_controlProcess_refused himage hrefused).bind fun result after hafter => ?_
          cases result with
          | ok _ => exact hnext hafter.1
          | error _ => exact hnext hafter.1

/-- What is listed is a part of the processes. -/
theorem listed_of_answer (h : Still table world) {choice : ProcessChoice}
    (hchoice : Alone canonicalize .listProcesses choice)
    {listed : List (UInt32 × UInt32)}
    (hanswer : (processAnswer .listProcesses choice world).1 = .ok listed) :
    listed = relationships choice.listed table.processes := by
  unfold processAnswer processCall at hanswer
  rw [hchoice.1, List.foldl_nil] at hanswer
  dsimp only at hanswer
  rw [h.1] at hanswer
  split at hanswer
  · cases hanswer
  · exact (Except.ok.inj hanswer).symm

/-- **A refused root** without such descendants is refused, and nobody is terminated. -/
theorem safe_refused (h : Still table world) (hrefused : Protected ownPid root ∨ path = "")
    (hspared : ∀ listed, ∀ child ∈ descendants root (relationships listed table.processes),
      ¬ Terminable ownPid table child) :
    Safe processAnswer (Alone canonicalize) (fun _ => Still table)
      (StillRefused table) (terminateProcessTree ownPid root path).run world := by
  unfold terminateProcessTree
  refine safe_tryBind.mpr ⟨h, fun choice hchoice => ?_⟩
  have himage := h.call hchoice nofun
  cases (processAnswer (.processImagePath root) choice world).1 with
  | error error => exact ⟨himage, error, rfl⟩
  | ok actual =>
      refine safe_liftBind.mpr (safe_perform.mpr ⟨himage, fun choice hchoice => ?_⟩)
      have hpath := himage.call hchoice nofun
      generalize processAnswer (.samePath actual path) choice
        (processAnswer (.processImagePath root) _ world).2 = answered at hpath ⊢
      obtain ⟨same, after⟩ := answered
      cases same with
      | false => exact ⟨hpath, _, rfl⟩
      | true =>
          have hstill : Still table after := hpath
          refine safe_tryBind.mpr (safe_orApi ⟨hstill, fun choice hchoice => ?_⟩)
          have hlists := hstill.call hchoice nofun
          cases hanswer : (processAnswer .listProcesses choice after).1 with
          | error error => exact ⟨hlists, _, rfl⟩
          | ok listed =>
              have hlisted := listed_of_answer hstill hchoice hanswer
              refine safe_liftBind.mpr ((safe_spared hlists fun child hchild => ?_).mono
                fun counts after hafter => ?_)
              · rw [List.mem_reverse, hlisted] at hchild
                exact hspared choice.listed child hchild
              · refine safe_tryBind.mpr ((safe_controlProcess_refused hafter hrefused).mono
                  fun result after hend => ?_)
                obtain ⟨hend, error, rfl⟩ := hend
                exact ⟨hend, error, rfl⟩

/-! ### A descendant that is terminated -/

/-- Nothing fails in a call, or only the reading of a path. -/
def calm (canonicalize : String → Option String) (listed : ℕ) (imageFailure : Option WindowsError) :
    ProcessChoice := ⟨[], imageFailure, none, listed, [], canonicalize⟩

theorem answer_imagePath {process : Process} (h : Still table world)
    (hlookup : table.processes.lookup pid = some process) (listed : ℕ) :
    processAnswer (.processImagePath pid) (calm canonicalize listed none) world =
      (.ok process.imagePath, world) := by
  unfold processAnswer processCall calm
  dsimp only [List.foldl_nil]
  rw [h.1, hlookup]

theorem answer_openProcess {process : Process} (h : Still table world)
    (hlookup : table.processes.lookup pid = some process) (listed : ℕ) :
    processAnswer (.openProcess pid) (calm canonicalize listed none) world =
      (.ok process, { world with opened := pid :: world.opened }) := by
  unfold processAnswer processCall calm
  dsimp only [List.foldl_nil]
  rw [h.1, hlookup]

/-- Somebody was terminated. -/
abbrev SomeTerminated (world : ProcessWorld) : Prop := world.terminated ≠ []

/-- A descendant that can be terminated is terminated, when nothing fails. -/
theorem reaches_controlProcess {process : Process} (h : Still table world)
    (hlookup : table.processes.lookup pid = some process) (hpid : ¬ Protected ownPid pid)
    (hpath : process.imagePath ≠ "") :
    Reaches processAnswer (Alone canonicalize) SomeTerminated
      (controlProcess ownPid "terminate" pid process.imagePath).run world := by
  unfold controlProcess
  have hguard : ¬ (pid ≤ 4 ∨ pid = ownPid ∨ process.imagePath = "") := by
    rintro (hsystem | hown | hempty)
    · exact hpid (.inl hsystem)
    · exact hpid (.inr hown)
    · exact hpath hempty
  rw [if_neg hguard, if_pos rfl]
  refine .inr ⟨calm canonicalize 0 none, ⟨rfl, rfl⟩, ?_⟩
  rw [answer_imagePath h hlookup]
  refine .inr ⟨calm canonicalize 0 none, ⟨rfl, rfl⟩, ?_⟩
  have hsame : processAnswer (.samePath process.imagePath process.imagePath)
      (calm canonicalize 0 none) world = (true, world) :=
    Prod.ext (beq_self_eq_true _) rfl
  rw [hsame]
  refine .inr ⟨calm canonicalize 0 none, ⟨rfl, rfl⟩, ?_⟩
  rw [answer_openProcess h hlookup]
  refine .inr ⟨calm canonicalize 0 none, ⟨rfl, rfl⟩, ?_⟩
  have hgone : (processAnswer (.terminateProcess pid process) (calm canonicalize 0 none)
      { world with opened := pid :: world.opened }).2.terminated =
        world.terminated ++ [(pid, process)] := by
    unfold processAnswer processCall calm
    dsimp only [List.foldl_nil]
    rw [h.1, if_pos hlookup]
  refine reaches_of_goal ?_
  show (processAnswer _ _ _).2.terminated ≠ []
  rw [hgone]
  exact List.concat_ne_nil _ _

/-- The descendants before it can be passed over. -/
theorem reaches_terminateDescendants {children : List UInt32} {child : UInt32}
    (h : Still table world) (hmem : child ∈ children) (hlarge : 4 < child)
    (hchild : Terminable ownPid table child) :
    Reaches processAnswer (Alone canonicalize) SomeTerminated
      (terminateDescendants ownPid children) world := by
  induction children with
  | nil => cases hmem
  | cons other children ih =>
      by_cases hsame : child = other
      · obtain ⟨hown, process, hlookup, hpath⟩ := hchild
        subst hsame
        have hpid : ¬ Protected ownPid child :=
          fun hprotected => hprotected.elim (fun hsystem => (UInt32.not_lt.mpr hsystem) hlarge) hown
        refine .inr ⟨calm canonicalize 0 none, ⟨rfl, rfl⟩, ?_⟩
        rw [answer_imagePath h hlookup]
        exact (reaches_controlProcess h hlookup hpid hpath).bind _
      · refine .inr ⟨calm canonicalize 0 (some (.api "")), ⟨rfl, rfl⟩, ?_⟩
        have hskipped : processAnswer (.processImagePath other)
            (calm canonicalize 0 (some (.api ""))) world = (.error (.api ""), world) := rfl
        rw [hskipped]
        exact (ih ((List.mem_cons.mp hmem).resolve_left hsame)).bind _

/-- **A descendant that can be terminated** is terminated in some run, also when the root is to be
refused. -/
theorem reaches_termination (h : Still table world) {child : UInt32} {listed : ℕ}
    (hmatch : Matches canonicalize table root path)
    (hmem : child ∈ descendants root (relationships listed table.processes))
    (hchild : Terminable ownPid table child) :
    Reaches processAnswer (Alone canonicalize) SomeTerminated
      (terminateProcessTree ownPid root path).run world := by
  obtain ⟨process, hlookup, hsame⟩ := hmatch
  unfold terminateProcessTree
  refine .inr ⟨calm canonicalize 0 none, ⟨rfl, rfl⟩, ?_⟩
  rw [answer_imagePath h hlookup]
  refine .inr ⟨calm canonicalize 0 none, ⟨rfl, rfl⟩, ?_⟩
  have hanswer : processAnswer (.samePath process.imagePath path) (calm canonicalize 0 none) world =
      (true, world) := Prod.ext hsame rfl
  rw [hanswer]
  refine .inr ⟨calm canonicalize listed none, ⟨rfl, rfl⟩, ?_⟩
  have hlists : (processAnswer .listProcesses (calm canonicalize listed none) world).1 =
      .ok (relationships listed table.processes) := by
    show Except.ok (relationships listed world.table.processes) = _
    rw [h.1]
  rw [hlists]
  have hstill :
      Still table (processAnswer .listProcesses (calm canonicalize listed none) world).2 :=
    h.call (show Alone canonicalize _ _ from ⟨rfl, rfl⟩) nofun
  have hlarge : 4 < child := (tree_order root _).large child hmem
  have hdescendants : Reaches processAnswer (Alone canonicalize) SomeTerminated
      (terminateDescendants ownPid
        (descendants root (relationships listed table.processes)).reverse)
      (processAnswer .listProcesses (calm canonicalize listed none) world).2 :=
    reaches_terminateDescendants hstill (List.mem_reverse.mpr hmem) hlarge hchild
  exact (hdescendants.bind _).bind _

end refusal

/-- **When a refused termination kills nothing.** A refused termination returns an error without
having terminated anybody exactly when `RefusalKept` holds; and in no run at all is a protected
process terminated. -/
theorem tree_refusal_iff (ownPid : UInt32) (canonicalize : String → Option String)
    (table : ProcessTable) (root : UInt32) (path : String) :
    (RefusesSafely ownPid canonicalize table root path ∧
        ∀ (before : ProcessTable) (choices : List ProcessChoice), ProtectedSpared ownPid
          (exec processAnswer (terminateProcessTree ownPid root path).run
            (.initial before) choices).2) ↔
      RefusalKept ownPid canonicalize table root path := by
  have hstart : Still table (.initial table) := ⟨rfl, rfl⟩
  constructor
  · rintro ⟨hrefuses, -⟩
    by_contra hnot
    obtain ⟨hrefused, hmatch, hspared⟩ :
        (Protected ownPid root ∨ path = "") ∧ Matches canonicalize table root path ∧
          ¬ ∀ listed, ∀ child ∈ descendants root (relationships listed table.processes),
            ¬ Terminable ownPid table child := by
      unfold RefusalKept at hnot
      tauto
    push Not at hspared
    obtain ⟨listed, child, hmem, hchild⟩ := hspared
    have hreaches : Reaches processAnswer (Alone canonicalize) SomeTerminated
        (terminateProcessTree ownPid root path).run (.initial table) :=
      reaches_termination hstart hmatch hmem hchild
    obtain ⟨choices, hallowed, hterminated⟩ := hreaches.exists_run
    have hsafe := hrefuses (hrefused.elim .inl fun hempty => .inr (.inl hempty)) choices hallowed
    exact hterminated hsafe.1
  · intro hkept
    refine ⟨fun hrefused choices => ?_, protectedSpared_run ownPid root path⟩
    have hsafe : Safe processAnswer (Alone canonicalize) (fun _ => Still table)
        (StillRefused table) (terminateProcessTree ownPid root path).run (.initial table) := by
      by_cases hmatch : Matches canonicalize table root path
      · have hguard : Protected ownPid root ∨ path = "" := by
          unfold Refused at hrefused
          tauto
        refine safe_refused hstart hguard ?_
        unfold RefusalKept at hkept
        tauto
      · exact safe_unmatched hstart hmatch
    intro program hallowed
    refine ⟨?_, fun value hvalue => ?_⟩
    · have hstill : Still table (exec processAnswer program (.initial table) choices).2 :=
        hsafe.invariant hallowed (fun _ _ h => h) fun _ _ h => h.1
      exact hstill.2
    · exact (hsafe.post_of_ret hallowed hvalue).2

/-- The service, and a process that it has started. -/
def serviceTable : ProcessTable where
  processes := Table.collect
    [(200, ⟨1, 77, "C:\\OpenGuard\\OpenGuardETW.exe"⟩),
      (77, ⟨0, 50, "C:\\OpenGuard\\service.exe"⟩)]
  clock := 2
  older pid process h := by
    obtain ⟨-, rfl⟩ | ⟨-, h⟩ := Table.lookup_insert_eq_some_iff.mp h
    · decide
    · obtain ⟨-, rfl⟩ | ⟨-, h⟩ := Table.lookup_insert_eq_some_iff.mp h
      · decide
      · cases h

/-- **A refused root that loses its child**: the termination of the service's own tree ends in an
error, after the child of the service was terminated. -/
theorem service_root_loses_child :
    (exec processAnswer (terminateProcessTree 77 77 "C:\\OpenGuard\\service.exe").run
        (.initial serviceTable) quietCalls).2.terminated.map Prod.fst = [200] ∧
      ¬ RefusesSafely 77 (fun _ => none) serviceTable 77 "C:\\OpenGuard\\service.exe" := by
  have hterminated : (exec processAnswer
      (terminateProcessTree 77 77 "C:\\OpenGuard\\service.exe").run
      (.initial serviceTable) quietCalls).2.terminated =
        [(200, ⟨1, 77, "C:\\OpenGuard\\OpenGuardETW.exe"⟩)] := rfl
  refine ⟨by rw [hterminated]; rfl, fun hrefuses => ?_⟩
  have hsafe := hrefuses (.inl (.inr rfl)) quietCalls (allowed_of_mem fun choice hchoice op => by
    rw [List.eq_of_mem_replicate hchoice]
    exact ⟨rfl, rfl⟩)
  have hnone : (exec processAnswer (terminateProcessTree 77 77 "C:\\OpenGuard\\service.exe").run
      (.initial serviceTable) quietCalls).2.terminated = [] := hsafe.1
  rw [hterminated] at hnone
  cases hnone

end OpenGuard.Windows
