import OpenGuard.Windows.Processes

/-!
# Terminating a process tree

The descendants of a process are found in one snapshot, and each of them is terminated later, under
its id. The path that a descendant is checked against is read at that time too, so it is that of
whoever has the id then.

* `Grown`: how the search goes; `descendants_grown`.
* `Stage`: what holds while the processes of the tree are terminated one after another.
* `only_tree_of_no_reuse`: over every run, only processes of the tree are terminated, when no id of
  the tree is taken again before it is opened and no parent is younger than its child.
-/

namespace OpenGuard.Windows

open OpenGuard.Lib OpenGuard.Lib.Program

/-! ## The search -/

/-- A list of descendants that has grown from the root: each is listed as a child of the root or of
one before it, and is new. -/
inductive Grown (root : UInt32) (listed : List (UInt32 × UInt32)) : List UInt32 → Prop
  | nil : Grown root listed []
  | snoc {found : List UInt32} {child parent : UInt32} (h : Grown root listed found)
      (hlisted : (child, parent) ∈ listed) (hparent : parent ∈ root :: found)
      (hnew : child ∉ root :: found) : Grown root listed (found ++ [child])

section search

variable {root parent : UInt32} {listed entries : List (UInt32 × UInt32)} {search : TreeSearch}

/-- A list that has grown has no duplicates. -/
theorem Grown.nodup {found : List UInt32} (h : Grown root listed found) :
    (root :: found).Nodup := by
  induction h with
  | nil => exact List.nodup_singleton root
  | @snoc found child _ h _ _ hnew ih =>
      rw [← List.cons_append]
      exact List.nodup_append.mpr ⟨ih, List.nodup_singleton child, fun a ha b hb => by
        rw [List.mem_singleton.mp hb]
        intro hsame
        exact hnew (hsame ▸ ha)⟩

/-- What holds during the search: the descendants have grown from the root, and what was visited,
and all of the frontier, is among them. -/
structure SearchInv (root : UInt32) (listed : List (UInt32 × UInt32)) (search : TreeSearch) :
    Prop where
  grown : Grown root listed search.descendants
  visited : ∀ pid, pid ∈ search.visited ↔ pid ∈ root :: search.descendants
  frontier : ∀ pid ∈ search.frontier, pid ∈ root :: search.descendants

/-- A child of a process that is known is found. -/
theorem SearchInv.found {child : UInt32} (h : SearchInv root listed search)
    (hlisted : (child, parent) ∈ listed) (hparent : parent ∈ root :: search.descendants)
    (hnew : child ∉ search.visited) :
    SearchInv root listed
      ⟨search.descendants ++ [child], child :: search.frontier, child :: search.visited⟩ where
  grown := h.grown.snoc hlisted hparent fun hin => hnew ((h.visited child).mpr hin)
  visited pid := by
    rw [List.mem_cons, h.visited, ← List.cons_append, List.mem_append, List.mem_singleton, or_comm]
  frontier pid hpid := by
    rw [← List.cons_append, List.mem_append, List.mem_singleton]
    obtain rfl | hold := List.mem_cons.mp hpid
    · exact .inr rfl
    · exact .inl (h.frontier pid hold)

/-- The loop over the entries keeps the invariant. -/
theorem SearchInv.visitChildren (h : SearchInv root listed search)
    (hparent : parent ∈ root :: search.descendants) (hentries : entries ⊆ listed) :
    SearchInv root listed (visitChildren parent entries search) := by
  induction entries generalizing search with
  | nil => exact h
  | cons entry entries ih =>
      obtain ⟨child, childParent⟩ := entry
      obtain ⟨hmem, hentries⟩ := List.cons_subset.mp hentries
      unfold Windows.visitChildren
      by_cases hvisit : childParent = parent ∧ 4 < child ∧ child ∉ search.visited
      · obtain ⟨rfl, -, hnew⟩ := id hvisit
        rw [if_pos hvisit]
        have hnext := h.found hmem hparent hnew
        dsimp only
        split_ifs
        · exact hnext
        · refine ih hnext ?_ hentries
          rw [← List.cons_append]
          exact List.mem_append_left _ hparent
      · rw [if_neg hvisit]
        exact ih h hparent hentries

/-- **Every turn** keeps the invariant, and so does the search. -/
theorem SearchInv.searchTree (turns : ℕ) (h : SearchInv root listed search) :
    SearchInv root listed (searchTree listed turns search) := by
  induction turns generalizing search with
  | zero => exact h
  | succ turns ih =>
      obtain ⟨found, frontier, visited⟩ := search
      unfold Windows.searchTree
      cases frontier with
      | nil => exact h
      | cons parent frontier =>
          have hpopped : SearchInv root listed ⟨found, frontier, visited⟩ :=
            ⟨h.grown, h.visited, fun pid hpid => h.frontier pid (List.mem_cons_of_mem _ hpid)⟩
          have hnext := hpopped.visitChildren (h.frontier parent List.mem_cons_self)
            (List.Subset.refl listed)
          dsimp only
          split_ifs
          · exact hnext
          · exact ih hnext

/-- The descendants of a process have grown from it. -/
theorem descendants_grown (root : UInt32) (listed : List (UInt32 × UInt32)) :
    Grown root listed (descendants root listed) := by
  refine (SearchInv.searchTree _ ⟨.nil, fun pid => ?_, fun pid hpid => ?_⟩).grown
  · exact Iff.rfl
  · exact hpid

/-- What is pushed on the frontier is a descendant. -/
theorem visitChildren_length (parent : UInt32) (entries : List (UInt32 × UInt32))
    (search : TreeSearch) :
    (visitChildren parent entries search).frontier.length + search.descendants.length =
      search.frontier.length + (visitChildren parent entries search).descendants.length := by
  induction entries generalizing search with
  | nil => rfl
  | cons entry entries ih =>
      unfold visitChildren
      dsimp only
      split_ifs
      · simp only [List.length_append, List.length_cons, List.length_nil]
        omega
      · have hnext := ih ⟨search.descendants ++ [entry.1], entry.1 :: search.frontier,
          entry.1 :: search.visited⟩
        simp only [List.length_append, List.length_cons, List.length_nil] at hnext
        omega
      · exact ih search

/-- A search that has not come to its end has taken an element from the frontier in every turn. -/
theorem searchTree_length (listed : List (UInt32 × UInt32)) (turns : ℕ) (search : TreeSearch) :
    (searchTree listed turns search).frontier = [] ∨
      4096 ≤ (searchTree listed turns search).descendants.length ∨
      (searchTree listed turns search).frontier.length + turns + search.descendants.length =
        search.frontier.length + (searchTree listed turns search).descendants.length := by
  induction turns generalizing search with
  | zero => exact .inr (.inr rfl)
  | succ turns ih =>
      obtain ⟨found, frontier, visited⟩ := search
      unfold searchTree
      cases frontier with
      | nil => exact .inl rfl
      | cons parent frontier =>
          have hturn := visitChildren_length parent listed ⟨found, frontier, visited⟩
          dsimp only at hturn ⊢
          split_ifs with hmany
          · exact .inr (.inl hmany)
          · obtain hempty | hmany | hlength :=
              ih (visitChildren parent listed ⟨found, frontier, visited⟩)
            · exact .inl hempty
            · exact .inr (.inl hmany)
            · refine .inr (.inr ?_)
              rw [List.length_cons]
              omega

/-- Descendants are listed as children. -/
theorem Grown.subset {found : List UInt32} (h : Grown root listed found) :
    found ⊆ listed.map Prod.fst := by
  induction h with
  | nil => exact List.nil_subset _
  | snoc _ hlisted _ _ ih =>
      exact List.append_subset.mpr ⟨ih, List.cons_subset.mpr
        ⟨List.mem_map_of_mem hlisted, List.nil_subset _⟩⟩

/-- **The search comes to its end** within its turns: the frontier is empty, or there are enough
descendants. -/
theorem searchTree_ends (root : UInt32) (listed : List (UInt32 × UInt32)) :
    (searchTree listed (listed.length + 1) ⟨[], [root], [root]⟩).frontier = [] ∨
      4096 ≤ (descendants root listed).length := by
  have hgrown := descendants_grown root listed
  have hfew : (descendants root listed).length ≤ listed.length := by
    have hlength : (listed.map Prod.fst).length = listed.length := List.length_map _
    rw [← hlength]
    exact (List.Nodup.subperm (List.nodup_cons.mp hgrown.nodup).2 hgrown.subset).length_le
  obtain hempty | hmany | hlength := searchTree_length listed
    (listed.length + 1) ⟨[], [root], [root]⟩
  · exact .inl hempty
  · exact .inr hmany
  · refine .inl (List.length_eq_zero_iff.mp ?_)
    rw [descendants] at hfew
    simp only [List.length_nil, List.length_singleton] at hlength
    omega

end search

/-! ## The run -/

/-- The processes of the tree: the root, and those whose recorded parent is in it and is not younger
than they are. -/
inductive InTree (processes : Table UInt32 Process) (root : UInt32) : UInt32 → Prop
  | root : InTree processes root root
  | child {pid : UInt32} {process : Process} (hprocess : processes.lookup pid = some process)
      (hparent : InTree processes root process.parentPid)
      (holder : ∀ parent, processes.lookup process.parentPid = some parent →
        parent.created < process.created) : InTree processes root pid

/-- Whatever was terminated is in the tree at the snapshot, and is the process that had the id
there. -/
def OnlyTree (root : UInt32) (world : ProcessWorld) : Prop :=
  ∀ pid process, (pid, process) ∈ world.terminated →
    ∃ snapshot, world.snapshot = some snapshot ∧ snapshot.processes.lookup pid = some process ∧
      InTree snapshot.processes root pid

/-- The ids that are terminated. -/
def ProcessSnapshot.members (root : UInt32) (snapshot : ProcessSnapshot) : List UInt32 :=
  root :: descendants root snapshot.relationships

/-- No id of the tree was taken again between the snapshot and its opening, and in the snapshot no
parent in the tree is younger than its child. -/
def NoReuse (root : UInt32) (world : ProcessWorld) : Prop :=
  ∀ snapshot, world.snapshot = some snapshot →
    (∀ pid ∈ snapshot.members root, pid ∉ world.reused) ∧
    ∀ child ∈ descendants root snapshot.relationships, ∀ process,
      snapshot.processes.lookup child = some process →
      ∀ parent, snapshot.processes.lookup process.parentPid = some parent →
        parent.created < process.created

section run

variable {root pid : UInt32} {snapshot : ProcessSnapshot} {remaining : List UInt32}
  {world : ProcessWorld} {choice : ProcessChoice}

/-- The relationships are those of processes of the snapshot. -/
def ProcessSnapshot.Sound (snapshot : ProcessSnapshot) : Prop :=
  ∀ child parent, (child, parent) ∈ snapshot.relationships →
    ∃ process, snapshot.processes.lookup child = some process ∧ process.parentPid = parent

theorem relationships_sound (listed : ℕ) (processes : Table UInt32 Process) :
    (⟨processes, relationships listed processes⟩ : ProcessSnapshot).Sound := by
  intro child parent hmem
  obtain ⟨entry, hentry, hpair⟩ := List.mem_map.mp hmem
  cases hpair
  exact ⟨entry.2, Table.mem_entries_iff.mp (List.mem_of_mem_take (List.mem_of_mem_take hentry)),
    rfl⟩

/-- A list that has grown is in the tree, when no parent is younger than its child. -/
theorem Grown.inTree {found : List UInt32} (hsound : snapshot.Sound)
    (h : Grown root snapshot.relationships found)
    (hages : ∀ child ∈ found, ∀ process, snapshot.processes.lookup child = some process →
      ∀ parent, snapshot.processes.lookup process.parentPid = some parent →
        parent.created < process.created) :
    ∀ pid ∈ root :: found, InTree snapshot.processes root pid := by
  induction h with
  | nil =>
      intro pid hpid
      rw [List.mem_singleton.mp hpid]
      exact .root
  | @snoc found child parent _ hlisted hparent _ ih =>
      have hearlier : ∀ pid ∈ root :: found, InTree snapshot.processes root pid :=
        ih fun earlier hmem => hages earlier (List.mem_append_left _ hmem)
      intro pid hpid
      rw [← List.cons_append] at hpid
      obtain hold | hlast := List.mem_append.mp hpid
      · exact hearlier pid hold
      · rw [List.mem_singleton.mp hlast]
        obtain ⟨process, hprocess, rfl⟩ := hsound child parent hlisted
        exact .child hprocess (hearlier _ hparent)
          (hages child (List.mem_append_right _ (List.mem_singleton_self child)) process hprocess)

/-- Without reuse the ids that are terminated are in the tree. -/
theorem NoReuse.inTree (h : NoReuse root world) (hsnapshot : world.snapshot = some snapshot)
    (hsound : snapshot.Sound) :
    ∀ pid ∈ snapshot.members root, InTree snapshot.processes root pid :=
  (descendants_grown root snapshot.relationships).inTree hsound (h snapshot hsnapshot).2

/-- What holds while the processes that remain are terminated: each of them has not been opened, and
is what it was at the snapshot unless its id was taken again. -/
structure Stage (root : UInt32) (snapshot : ProcessSnapshot) (remaining : List UInt32)
    (world : ProcessWorld) : Prop where
  taken : world.snapshot = some snapshot
  unopened : ∀ pid ∈ remaining, pid ∉ world.opened
  same : ∀ pid ∈ remaining, pid ∉ world.reused →
    ∀ process, world.table.processes.lookup pid = some process →
      snapshot.processes.lookup pid = some process
  only : NoReuse root world → OnlyTree root world

/-- With the ids that were taken again less, there is less reuse. -/
theorem NoReuse.mono {earlier : ProcessWorld} (h : NoReuse root world)
    (hsnapshot : world.snapshot = earlier.snapshot) (hreused : earlier.reused ⊆ world.reused) :
    NoReuse root earlier := by
  intro snapshot hearlier
  obtain ⟨hids, hages⟩ := h snapshot (hsnapshot.trans hearlier)
  exact ⟨fun pid hpid hin => hids pid hpid (hreused hin), hages⟩

theorem event_snapshot (world : ProcessWorld) (event : ProcessEvent) :
    (world.event event).snapshot = world.snapshot := by
  cases event with
  | starts pid parentPid imagePath =>
      unfold ProcessWorld.event
      dsimp only
      split_ifs <;> rfl
  | exits pid => rfl

theorem event_opened (world : ProcessWorld) (event : ProcessEvent) :
    (world.event event).opened = world.opened := by
  cases event with
  | starts pid parentPid imagePath =>
      unfold ProcessWorld.event
      dsimp only
      split_ifs <;> rfl
  | exits pid => rfl

theorem event_terminated (world : ProcessWorld) (event : ProcessEvent) :
    (world.event event).terminated = world.terminated := by
  cases event with
  | starts pid parentPid imagePath =>
      unfold ProcessWorld.event
      dsimp only
      split_ifs <;> rfl
  | exits pid => rfl

theorem events_terminated (events : List ProcessEvent) (world : ProcessWorld) :
    (events.foldl ProcessWorld.event world).terminated = world.terminated := by
  induction events generalizing world with
  | nil => rfl
  | cons event events ih => exact (ih _).trans (event_terminated world event)

/-- A call that is not a termination terminates nothing. -/
theorem terminated_call {op : ProcessOp} (hop : ∀ pid process, op ≠ .terminateProcess pid process)
    (choice : ProcessChoice) (world : ProcessWorld) :
    (processCall op choice world).2.terminated = world.terminated ∧
      (processCall op choice world).2.table = world.table := by
  cases op with
  | terminateProcess pid process => exact absurd rfl (hop pid process)
  | samePath left right => exact ⟨rfl, rfl⟩
  | _ =>
      unfold processCall
      dsimp only
      split <;> exact ⟨rfl, rfl⟩

theorem event_reused (world : ProcessWorld) (event : ProcessEvent) :
    world.reused ⊆ (world.event event).reused := by
  cases event with
  | starts pid parentPid imagePath =>
      unfold ProcessWorld.event
      dsimp only
      split_ifs
      · exact List.Subset.refl _
      · exact List.subset_append_left _ _
      · exact List.Subset.refl _
  | exits pid => exact List.Subset.refl _

/-- A process that has an id after an event had it before, or the id was taken again. -/
theorem lookup_event {event : ProcessEvent} {process : Process}
    (hsnapshot : world.snapshot = some snapshot) (hopened : pid ∉ world.opened)
    (hreused : pid ∉ (world.event event).reused)
    (h : (world.event event).table.processes.lookup pid = some process) :
    world.table.processes.lookup pid = some process := by
  cases event with
  | starts other parentPid imagePath =>
      unfold ProcessWorld.event at h hreused
      dsimp only at h hreused
      by_cases hused : other ∈ world.table.processes
      · rwa [if_pos hused] at h
      · rw [if_neg hused] at h hreused
        obtain ⟨rfl, -⟩ | ⟨-, hold⟩ := Table.lookup_insert_eq_some_iff.mp h
        · rw [hsnapshot, if_pos ⟨rfl, hopened⟩] at hreused
          exact absurd (List.mem_append_right _ (List.mem_singleton_self pid)) hreused
        · exact hold
  | exits other =>
      by_cases hsame : pid = other
      · have hnone : (world.table.processes.erase other).lookup pid = none := by
          rw [hsame, AList.lookup_erase]
        cases hnone.symm.trans h
      · exact (AList.lookup_erase_ne hsame).symm.trans h

/-- **Other parties** keep the stage, whatever they do. -/
theorem Stage.event (h : Stage root snapshot remaining world) (event : ProcessEvent) :
    Stage root snapshot remaining (world.event event) where
  taken := (event_snapshot world event).trans h.taken
  unopened pid hpid hopened := h.unopened pid hpid (event_opened world event ▸ hopened)
  same pid hpid hreused process hprocess := by
    refine h.same pid hpid (fun hin => hreused (event_reused world event hin)) process ?_
    exact lookup_event h.taken (h.unopened pid hpid) hreused hprocess
  only hquiet := by
    have honly := h.only (hquiet.mono (event_snapshot world event) (event_reused world event))
    unfold OnlyTree at honly ⊢
    rwa [event_snapshot, event_terminated]

theorem Stage.events (h : Stage root snapshot remaining world) (events : List ProcessEvent) :
    Stage root snapshot remaining (events.foldl ProcessWorld.event world) := by
  induction events generalizing world with
  | nil => exact h
  | cons event events ih => exact ih (h.event event)

/-- Less remains. -/
theorem Stage.drop (h : Stage root snapshot (pid :: remaining) world) :
    Stage root snapshot remaining world where
  taken := h.taken
  unopened other hother := h.unopened other (List.mem_cons_of_mem _ hother)
  same other hother := h.same other (List.mem_cons_of_mem _ hother)
  only := h.only

/-- The calls that neither look at all processes nor open or terminate one. -/
def Harmless : ProcessOp → Prop
  | .listProcesses => False
  | .openProcess _ => False
  | .terminateProcess _ _ => False
  | _ => True

/-- A harmless call only notes which threads were controlled. -/
theorem harmless_call {op : ProcessOp} (hop : Harmless op) (choice : ProcessChoice)
    (world : ProcessWorld) :
    (processCall op choice world).2 = world ∨
      ∃ controlled, (processCall op choice world).2 = { world with controlled } := by
  cases op with
  | processImagePath pid =>
      unfold processCall
      dsimp only
      split <;> exact .inl rfl
  | samePath left right => exact .inl rfl
  | listProcesses => exact hop.elim
  | openProcess pid => exact hop.elim
  | terminateProcess pid process => exact hop.elim
  | listThreads =>
      unfold processCall
      dsimp only
      split <;> exact .inl rfl
  | controlThread thread suspend =>
      unfold processCall
      dsimp only
      split
      · exact .inl rfl
      · exact .inr ⟨_, rfl⟩

/-- A harmless call keeps the stage. -/
theorem Stage.harmless (h : Stage root snapshot remaining world) (op : ProcessOp)
    (choice : ProcessChoice) (hop : Harmless op) :
    Stage root snapshot remaining (processAnswer op choice world).2 := by
  have hevents := h.events choice.events
  obtain hsame | ⟨controlled, hcontrolled⟩ :=
    harmless_call hop choice (choice.events.foldl ProcessWorld.event world)
  · exact (congrArg _ hsame).mpr hevents
  · refine (congrArg _ hcontrolled).mpr ?_
    exact ⟨hevents.taken, hevents.unopened, hevents.same, hevents.only⟩

/-- What is known of a process that was opened. -/
def Known (snapshot : ProcessSnapshot) (pid : UInt32) (process : Process) (world : ProcessWorld) :
    Prop :=
  pid ∉ world.reused → snapshot.processes.lookup pid = some process

theorem Known.events {process : Process} (h : Known snapshot pid process world)
    (events : List ProcessEvent) :
    Known snapshot pid process (events.foldl ProcessWorld.event world) := by
  induction events generalizing world with
  | nil => exact h
  | cons event events ih =>
      exact ih fun hreused => h fun hin => hreused (event_reused world event hin)

/-- Opening one of the processes that remain. -/
theorem Stage.opens {process : Process} (hfresh : pid ∉ remaining)
    (h : Stage root snapshot (pid :: remaining) world)
    (hopen : (processAnswer (.openProcess pid) choice world).1 = .ok process) :
    Stage root snapshot remaining (processAnswer (.openProcess pid) choice world).2 ∧
      Known snapshot pid process (processAnswer (.openProcess pid) choice world).2 := by
  have hevents := h.events choice.events
  unfold processAnswer processCall at hopen ⊢
  dsimp only at hopen ⊢
  split at hopen
  · cases hopen
  · cases hopen
  · rename_i found _ hfound
    cases hopen
    refine ⟨⟨hevents.taken, ?_, hevents.drop.same, hevents.only⟩, ?_⟩
    · intro other hother hin
      obtain rfl | hold := List.mem_cons.mp hin
      · exact hfresh hother
      · exact hevents.drop.unopened other hother hold
    · intro hreused
      exact hevents.same pid List.mem_cons_self hreused process hfound

/-- Terminating a process that was opened. -/
theorem Stage.terminates {process : Process} (h : Stage root snapshot remaining world)
    (choice : ProcessChoice) (hsound : snapshot.Sound) (hmember : pid ∈ snapshot.members root)
    (hknown : Known snapshot pid process world) :
    Stage root snapshot remaining
      (processAnswer (.terminateProcess pid process) choice world).2 := by
  have hevents := h.events choice.events
  have hknown := hknown.events choice.events
  unfold processAnswer processCall
  dsimp only
  split
  · exact hevents
  split_ifs with hrunning
  · refine ⟨hevents.taken, hevents.unopened, ?_, ?_⟩
    · intro other hother hreused found hfound
      refine hevents.same other hother hreused found ?_
      by_cases hsame : other = pid
      · have hnone : ((choice.events.foldl ProcessWorld.event world).table.processes.erase
            pid).lookup other = none := by
          rw [hsame, AList.lookup_erase]
        cases hnone.symm.trans hfound
      · exact (AList.lookup_erase_ne hsame).symm.trans hfound
    · intro hquiet
      have hbefore : NoReuse root (choice.events.foldl ProcessWorld.event world) := hquiet
      intro victim what hvictim
      obtain hold | hnew := List.mem_append.mp hvictim
      · exact hevents.only hbefore victim what hold
      · cases List.mem_singleton.mp hnew
        refine ⟨snapshot, hevents.taken, ?_, ?_⟩
        · exact hknown ((hbefore snapshot hevents.taken).1 pid hmember)
        · exact hbefore.inTree hevents.taken hsound pid hmember
  · exact hevents

/-! ### The programs -/

variable {ownPid : UInt32} {path : String} {α : Type}

/-- Every choice is allowed. -/
abbrev AnyChoice : ProcessOp → ProcessChoice → Prop := fun _ _ => True

/-- Whoever was terminated was in the tree, without reuse. -/
abbrev Kept (root : UInt32) : ProcessOp → ProcessWorld → Prop :=
  fun _ world => NoReuse root world → OnlyTree root world

/-- The rule of a call whose error is put into a text. -/
theorem safe_orApi {text : String} {p : Program ProcessOp ProcessOp.Answer (Except String α)}
    {allow : ProcessOp → ProcessChoice → Prop} {fit : ProcessOp → ProcessWorld → Prop}
    {post : Except WindowsError α → ProcessWorld → Prop}
    (h : Safe processAnswer allow fit (fun r after => match r with
      | .ok value => post (.ok value) after
      | .error error => post (.error (.api (text ++ ": " ++ error))) after) p world) :
    Safe processAnswer allow fit post (orApi text p).run world := by
  refine h.bind fun r after hr => ?_
  cases r with
  | ok value => exact hr
  | error error => exact hr

/-- The process that comes next is terminated, or not. -/
theorem safe_terminate (hsound : snapshot.Sound) (hmember : pid ∈ snapshot.members root)
    (hfresh : pid ∉ remaining) (h : Stage root snapshot (pid :: remaining) world) :
    Safe processAnswer AnyChoice (Kept root) (fun _ => Stage root snapshot remaining)
      (terminate pid).run world := by
  refine safe_tryBind.mpr (safe_orApi ⟨h.only, fun choice _ => ?_⟩)
  cases hopen : (processAnswer (.openProcess pid) choice world).1 with
  | error error =>
      have hafter : Stage root snapshot (pid :: remaining)
          (processAnswer (.openProcess pid) choice world).2 := by
        have hevents := h.events choice.events
        unfold processAnswer processCall at hopen ⊢
        dsimp only at hopen ⊢
        split at hopen
        · exact hevents
        · exact hevents
        · cases hopen
      exact hafter.drop
  | ok process =>
      obtain ⟨hafter, hknown⟩ := h.opens hfresh hopen
      refine safe_tryBind.mpr (safe_orApi ⟨hafter.only, fun choice _ => ?_⟩)
      have hdone := hafter.terminates choice hsound hmember hknown
      cases (processAnswer (.terminateProcess pid process) choice
          (processAnswer (.openProcess pid) _ world).2).1 with
      | error error => exact hdone
      | ok _ => exact hdone

/-- The control of the process that comes next. -/
theorem safe_controlProcess (hsound : snapshot.Sound) (hmember : pid ∈ snapshot.members root)
    (hfresh : pid ∉ remaining) (h : Stage root snapshot (pid :: remaining) world) :
    Safe processAnswer AnyChoice (Kept root) (fun _ => Stage root snapshot remaining)
      (controlProcess ownPid "terminate" pid path).run world := by
  unfold controlProcess
  rw [if_pos rfl]
  split_ifs
  · exact h.drop
  refine safe_tryBind.mpr ⟨h.only, fun choice _ => ?_⟩
  have himage := h.harmless (.processImagePath pid) choice trivial
  cases (processAnswer (.processImagePath pid) choice world).1 with
  | error error => exact himage.drop
  | ok actual =>
      refine safe_liftBind.mpr (safe_perform.mpr ⟨himage.only, fun choice _ => ?_⟩)
      have hpath := himage.harmless (.samePath actual path) choice trivial
      generalize processAnswer (.samePath actual path) choice
        (processAnswer (.processImagePath pid) _ world).2 = answered at hpath ⊢
      obtain ⟨same, after⟩ := answered
      cases same with
      | true => exact safe_terminate hsound hmember hfresh hpath
      | false => exact hpath.drop

/-- **The loop** over the descendants. -/
theorem safe_terminateDescendants (hsound : snapshot.Sound) {children : List UInt32}
    (hmembers : children ⊆ snapshot.members root) (hnodup : (children ++ remaining).Nodup)
    (h : Stage root snapshot (children ++ remaining) world) :
    Safe processAnswer AnyChoice (Kept root) (fun _ => Stage root snapshot remaining)
      (terminateDescendants ownPid children) world := by
  induction children generalizing world with
  | nil => exact h
  | cons child children ih =>
      obtain ⟨hmember, hmembers⟩ := List.cons_subset.mp hmembers
      obtain ⟨hfresh, hnodup⟩ := List.nodup_cons.mp hnodup
      have hnext : ∀ {after}, Stage root snapshot (children ++ remaining) after →
          ∀ {post : List UInt32 × ℕ → List UInt32 × ℕ},
          Safe processAnswer AnyChoice (Kept root) (fun _ => Stage root snapshot remaining)
            (terminateDescendants ownPid children >>= fun counts => pure (post counts)) after :=
        fun hafter => (ih hmembers hnodup hafter).bind fun _ _ hend => hend
      refine ⟨h.only, fun choice _ => ?_⟩
      have himage := h.harmless (.processImagePath child) choice trivial
      cases (processAnswer (.processImagePath child) choice world).1 with
      | error error => exact hnext himage.drop
      | ok path =>
          refine (safe_controlProcess hsound hmember hfresh himage).bind
            fun result after hafter => ?_
          cases result with
          | ok _ => exact hnext hafter
          | error _ => exact hnext hafter

/-- Before the snapshot nothing was done. -/
structure Untouched (world : ProcessWorld) : Prop where
  snapshot : world.snapshot = none
  opened : world.opened = []
  reused : world.reused = []
  terminated : world.terminated = []

theorem Untouched.only (h : Untouched world) : NoReuse root world → OnlyTree root world := by
  intro _ pid process hmem
  rw [h.terminated] at hmem
  cases hmem

theorem Untouched.events (h : Untouched world) (events : List ProcessEvent) :
    Untouched (events.foldl ProcessWorld.event world) := by
  induction events generalizing world with
  | nil => exact h
  | cons event events ih =>
      refine ih ⟨?_, ?_, ?_, ?_⟩
      · exact (event_snapshot world event).trans h.snapshot
      · exact (event_opened world event).trans h.opened
      · cases event with
        | starts pid parentPid imagePath =>
            unfold ProcessWorld.event
            dsimp only
            split_ifs with hused htaken
            · exact h.reused
            · rw [h.snapshot] at htaken
              cases htaken.1
            · exact h.reused
        | exits pid => exact h.reused
      · exact (event_terminated world event).trans h.terminated

/-- A harmless call does nothing that is noted. -/
theorem Untouched.harmless (h : Untouched world) (op : ProcessOp) (choice : ProcessChoice)
    (hop : Harmless op) : Untouched (processAnswer op choice world).2 := by
  have hevents := h.events choice.events
  obtain hsame | ⟨controlled, hcontrolled⟩ :=
    harmless_call hop choice (choice.events.foldl ProcessWorld.event world)
  · exact (congrArg _ hsame).mpr hevents
  · refine (congrArg _ hcontrolled).mpr ?_
    exact ⟨hevents.snapshot, hevents.opened, hevents.reused, hevents.terminated⟩

/-- The snapshot begins the stage in which every process of the tree remains. -/
theorem Untouched.lists (h : Untouched world) (root : UInt32) {listed : List (UInt32 × UInt32)}
    (hlisted : (processAnswer .listProcesses choice world).1 = .ok listed) :
    ∃ snapshot : ProcessSnapshot, snapshot.relationships = listed ∧ snapshot.Sound ∧
      Stage root snapshot ((descendants root listed).reverse ++ [root])
        (processAnswer .listProcesses choice world).2 := by
  have hevents := h.events choice.events
  unfold processAnswer processCall at hlisted ⊢
  dsimp only at hlisted ⊢
  split at hlisted
  · cases hlisted
  · cases hlisted
    refine ⟨_, rfl, relationships_sound choice.listed _, rfl, ?_, ?_, ?_⟩
    · intro pid _ hopened
      rw [hevents.opened] at hopened
      cases hopened
    · intro pid _ _ process hprocess
      exact hprocess
    · intro _ pid process hmem
      rw [hevents.terminated] at hmem
      cases hmem

/-- The program from the snapshot on. -/
theorem safe_terminateListed (h : Untouched world) :
    Safe processAnswer AnyChoice (Kept root)
      (fun _ after => NoReuse root after → OnlyTree root after)
      (terminateListed ownPid root path).run world := by
  refine safe_tryBind.mpr (safe_orApi ⟨h.only, fun choice _ => ?_⟩)
  cases hlist : (processAnswer .listProcesses choice world).1 with
  | error error =>
      have hafter := h.events choice.events
      unfold processAnswer processCall at hlist ⊢
      dsimp only at hlist ⊢
      split at hlist
      · exact hafter.only
      · cases hlist
  | ok listed =>
      obtain ⟨snapshot, rfl, hsound, hstage⟩ := h.lists root hlist
      have hnodup : ((descendants root snapshot.relationships).reverse ++ [root]).Nodup := by
        rw [← List.reverse_cons, List.nodup_reverse]
        exact (descendants_grown root snapshot.relationships).nodup
      have hmembers : (descendants root snapshot.relationships).reverse ⊆ snapshot.members root :=
        fun pid hpid => List.mem_cons_of_mem _ (List.mem_reverse.mp hpid)
      refine safe_liftBind.mpr ((safe_terminateDescendants hsound hmembers hnodup hstage).mono
        fun counts after hafter => ?_)
      refine safe_tryBind.mpr ((safe_controlProcess hsound List.mem_cons_self List.not_mem_nil
        hafter).mono fun result after hend => ?_)
      cases result with
      | ok _ => exact hend.only
      | error _ => exact hend.only

/-- The program as a whole. -/
theorem safe_terminateProcessTree (h : Untouched world) :
    Safe processAnswer AnyChoice (Kept root)
      (fun _ after => NoReuse root after → OnlyTree root after)
      (terminateProcessTree ownPid root path).run world := by
  unfold terminateProcessTree
  refine safe_tryBind.mpr ⟨h.only, fun choice _ => ?_⟩
  have himage := h.harmless (.processImagePath root) choice trivial
  cases (processAnswer (.processImagePath root) choice world).1 with
  | error error => exact himage.only
  | ok actual =>
      refine safe_liftBind.mpr (safe_perform.mpr ⟨himage.only, fun choice _ => ?_⟩)
      have hpath := himage.harmless (.samePath actual path) choice trivial
      generalize processAnswer (.samePath actual path) choice
        (processAnswer (.processImagePath root) _ world).2 = answered at hpath ⊢
      obtain ⟨same, after⟩ := answered
      cases same with
      | true => exact safe_terminateListed hpath
      | false => exact hpath.only

end run

/-! ## The result -/

/-- **Termination of a tree**: over every run, whatever exits and starts between the calls, only
processes of the tree at the snapshot are terminated, when no id of the tree is taken again before
it is opened and no parent is younger than its child. -/
theorem only_tree_of_no_reuse (ownPid root : UInt32) (expectedPath : String) (table : ProcessTable)
    (choices : List ProcessChoice)
    (hquiet : NoReuse root (exec processAnswer (terminateProcessTree ownPid root expectedPath).run
      (.initial table) choices).2) :
    OnlyTree root (exec processAnswer (terminateProcessTree ownPid root expectedPath).run
      (.initial table) choices).2 := by
  have hstart : Untouched (.initial table) := ⟨rfl, rfl, rfl, rfl⟩
  have hsafe : Safe processAnswer AnyChoice (Kept root)
      (fun _ after => NoReuse root after → OnlyTree root after)
      (terminateProcessTree ownPid root expectedPath).run (.initial table) :=
    safe_terminateProcessTree hstart
  have hkept : NoReuse root _ → OnlyTree root _ :=
    hsafe.invariant (I := fun after => NoReuse root after → OnlyTree root after)
      (allowed_of_forall (fun _ _ => trivial) _ _ choices) (fun _ _ h => h) fun _ _ h => h
  exact hkept hquiet

/-- A process and its child. -/
def familyTable : ProcessTable where
  processes := Table.collect
    [(200, ⟨1, 100, "C:\\Tools\\child.exe"⟩), (100, ⟨0, 50, "C:\\Tools\\parent.exe"⟩)]
  clock := 2
  older pid process h := by
    obtain ⟨-, rfl⟩ | ⟨-, h⟩ := Table.lookup_insert_eq_some_iff.mp h
    · decide
    · obtain ⟨-, rfl⟩ | ⟨-, h⟩ := Table.lookup_insert_eq_some_iff.mp h
      · decide
      · cases h

/-- Nothing happens during the calls. -/
def quietCalls : List ProcessChoice := List.replicate 12 .quiet

/-- After the snapshot the child exits and its id is taken again. -/
def reuseCalls : List ProcessChoice :=
  List.replicate 3 .quiet ++
    { ProcessChoice.quiet with
      events := [.exits 200, .starts 200 50 "C:\\Tools\\other.exe"] } :: List.replicate 8 .quiet

/-- The termination of the two. -/
def familyRun (choices : List ProcessChoice) : ProcessWorld :=
  (exec processAnswer (terminateProcessTree 77 100 "C:\\Tools\\parent.exe").run
    (.initial familyTable) choices).2

/-- When nothing happens, the two are terminated. -/
theorem family_terminated :
    (familyRun quietCalls).terminated.map Prod.fst = [200, 100] ∧
      OnlyTree 100 (familyRun quietCalls) := by
  refine ⟨rfl, only_tree_of_no_reuse 77 100 _ familyTable quietCalls fun snapshot hsnapshot => ?_⟩
  cases hsnapshot
  refine ⟨fun pid _ => List.not_mem_nil, fun child hchild process hprocess parent hparent => ?_⟩
  have hchild : child ∈ [(200 : UInt32)] := hchild
  rw [List.mem_singleton.mp hchild] at hprocess
  cases hprocess
  cases hparent
  decide

/-- The process that has taken the id of the child is terminated in its place. -/
theorem reused_id_terminated :
    (200, ⟨2, 50, "C:\\Tools\\other.exe"⟩) ∈ (familyRun reuseCalls).terminated ∧
      ¬ OnlyTree 100 (familyRun reuseCalls) := by
  have hterminated : (familyRun reuseCalls).terminated =
      [(200, ⟨2, 50, "C:\\Tools\\other.exe"⟩), (100, ⟨0, 50, "C:\\Tools\\parent.exe"⟩)] := rfl
  have hmem : (200, ⟨2, 50, "C:\\Tools\\other.exe"⟩) ∈ (familyRun reuseCalls).terminated := by
    rw [hterminated]
    exact List.mem_cons_self
  refine ⟨hmem, fun honly => ?_⟩
  obtain ⟨snapshot, hsnapshot, hsame, -⟩ := honly 200 _ hmem
  cases hsnapshot
  cases hsame

end OpenGuard.Windows
