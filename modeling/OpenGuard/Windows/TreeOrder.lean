import OpenGuard.Windows.ProcessTree
import Mathlib.Logic.Relation

/-!
# The order of a process tree

The search for the descendants of a process takes the process that was found last, passes over the
snapshot, and puts those listed as its children on top of the others; it stops at 4096 descendants.
The snapshot is any list of processes with their parents, with cycles and duplicates.

* `discoveries`: the descendants, each with the process through which it was found.
* `Discovered`: how they follow one another; `discovered_discoveries`.
* `Closed`: what a search that has not stopped early has seen; `closed_searchTree`.
* `tree_order`: what is found, and in which order it is terminated.
* `terminated_in_order`: every run terminates in that order.
-/

namespace OpenGuard.Windows

open OpenGuard.Lib OpenGuard.Lib.Program

/-! ## Who is found through whom -/

/-- What the loop over the entries finds, each with the process that it is a child of. -/
def visitDiscoveries (parent : UInt32) :
    List (UInt32 × UInt32) → TreeSearch → List (UInt32 × UInt32)
  | [], _ => []
  | (child, childParent) :: listed, search =>
      if childParent = parent ∧ 4 < child ∧ child ∉ search.visited then
        let next : TreeSearch :=
          ⟨search.descendants ++ [child], child :: search.frontier, child :: search.visited⟩
        (child, parent) ::
          if 4096 ≤ next.descendants.length then [] else visitDiscoveries parent listed next
      else visitDiscoveries parent listed search

/-- What the loop over the frontier finds. -/
def searchDiscoveries (listed : List (UInt32 × UInt32)) :
    ℕ → TreeSearch → List (UInt32 × UInt32)
  | 0, _ => []
  | turns + 1, search =>
      match search.frontier with
      | [] => []
      | parent :: frontier =>
          let next := visitChildren parent listed { search with frontier }
          visitDiscoveries parent listed { search with frontier } ++
            if 4096 ≤ next.descendants.length then [] else searchDiscoveries listed turns next

/-- The descendants of a process in the order in which they are found, each with the process through
which it is found. -/
def discoveries (root : UInt32) (listed : List (UInt32 × UInt32)) : List (UInt32 × UInt32) :=
  searchDiscoveries listed (listed.length + 1) ⟨[], [root], [root]⟩

/-- The order in which the processes of the tree are terminated.
Source: `response.rs`, `terminate_process_tree` -/
def terminationOrder (root : UInt32) (listed : List (UInt32 × UInt32)) : List UInt32 :=
  (descendants root listed).reverse ++ [root]

/-- Each one that is found is new, may be terminated, and is listed as a child of one that is known
then. -/
def Discovered (listed : List (UInt32 × UInt32)) :
    List UInt32 → List (UInt32 × UInt32) → Prop
  | _, [] => True
  | known, (child, parent) :: found =>
      (child, parent) ∈ listed ∧ 4 < child ∧ parent ∈ known ∧ child ∉ known ∧
        Discovered listed (known ++ [child]) found

section discovered

variable {root parent : UInt32} {listed entries : List (UInt32 × UInt32)} {search : TreeSearch}
  {known : List UInt32} {found others : List (UInt32 × UInt32)} {child : UInt32}

theorem discovered_append :
    Discovered listed known (found ++ others) ↔
      Discovered listed known found ∧ Discovered listed (known ++ found.map Prod.fst) others := by
  induction found generalizing known with
  | nil => simp [Discovered]
  | cons entry found ih =>
      obtain ⟨child, parent⟩ := entry
      simp only [List.cons_append, Discovered, ih, List.map_cons, List.append_assoc,
        List.nil_append, and_assoc]

/-- The loop over the entries finds what it adds. -/
theorem visitChildren_descendants (parent : UInt32) (entries : List (UInt32 × UInt32))
    (search : TreeSearch) :
    (visitChildren parent entries search).descendants =
      search.descendants ++ (visitDiscoveries parent entries search).map Prod.fst := by
  induction entries generalizing search with
  | nil => simp [visitChildren, visitDiscoveries]
  | cons entry entries ih =>
      obtain ⟨child, childParent⟩ := entry
      unfold visitChildren visitDiscoveries
      dsimp only
      split_ifs
      · rfl
      · rw [ih, List.append_assoc]
        rfl
      · exact ih search

/-- What the loop over the entries finds has been found as it should be. -/
theorem discovered_visitDiscoveries (h : SearchInv root listed search)
    (hparent : parent ∈ root :: search.descendants) (hentries : entries ⊆ listed) :
    Discovered listed (root :: search.descendants) (visitDiscoveries parent entries search) := by
  induction entries generalizing search with
  | nil => trivial
  | cons entry entries ih =>
      obtain ⟨child, childParent⟩ := entry
      obtain ⟨hmem, hentries⟩ := List.cons_subset.mp hentries
      unfold visitDiscoveries
      split_ifs with hvisit
      · obtain ⟨rfl, hlarge, hnew⟩ := id hvisit
        have hunknown : child ∉ root :: search.descendants :=
          fun hin => hnew ((h.visited child).mpr hin)
        have hnext : SearchInv root listed
            ⟨search.descendants ++ [child], child :: search.frontier, child :: search.visited⟩ :=
          h.found hmem hparent hnew
        refine ⟨hmem, hlarge, hparent, hunknown, ?_⟩
        dsimp only
        split_ifs
        · trivial
        · refine ih hnext ?_ hentries
          rw [← List.cons_append]
          exact List.mem_append_left _ hparent
      · exact ih h hparent hentries

/-- The search finds what it adds, as it should be found. -/
theorem discovered_searchDiscoveries (turns : ℕ) (h : SearchInv root listed search) :
    (searchTree listed turns search).descendants =
        search.descendants ++ (searchDiscoveries listed turns search).map Prod.fst ∧
      Discovered listed (root :: search.descendants) (searchDiscoveries listed turns search) := by
  induction turns generalizing search with
  | zero => exact ⟨(List.append_nil _).symm, trivial⟩
  | succ turns ih =>
      obtain ⟨found, frontier, visited⟩ := search
      unfold searchTree searchDiscoveries
      cases frontier with
      | nil => exact ⟨(List.append_nil _).symm, trivial⟩
      | cons parent frontier =>
          have hpopped : SearchInv root listed ⟨found, frontier, visited⟩ :=
            ⟨h.grown, h.visited, fun pid hpid => h.frontier pid (List.mem_cons_of_mem _ hpid)⟩
          have hparent : parent ∈ root :: found := h.frontier parent List.mem_cons_self
          have hfound := visitChildren_descendants parent listed ⟨found, frontier, visited⟩
          have hdiscovered := discovered_visitDiscoveries hpopped hparent (List.Subset.refl listed)
          have hnext := hpopped.visitChildren hparent (List.Subset.refl listed)
          dsimp only
          split_ifs with hmany
          · rw [List.append_nil]
            exact ⟨hfound, hdiscovered⟩
          · obtain ⟨hrest, hlater⟩ := ih hnext
            rw [hfound] at hrest hlater
            refine ⟨?_, discovered_append.mpr ⟨hdiscovered, hlater⟩⟩
            rw [hrest, List.map_append, List.append_assoc]

/-- The search begins with the root. -/
theorem searchInv_start (root : UInt32) (listed : List (UInt32 × UInt32)) :
    SearchInv root listed ⟨[], [root], [root]⟩ :=
  ⟨.nil, fun _ => Iff.rfl, fun _ hpid => hpid⟩

/-- The discoveries are those of the descendants. -/
theorem map_fst_discoveries (root : UInt32) (listed : List (UInt32 × UInt32)) :
    (discoveries root listed).map Prod.fst = descendants root listed :=
  (discovered_searchDiscoveries _ (searchInv_start root listed)).1.symm

theorem discovered_discoveries (root : UInt32) (listed : List (UInt32 × UInt32)) :
    Discovered listed [root] (discoveries root listed) :=
  (discovered_searchDiscoveries _ (searchInv_start root listed)).2

/-- Whoever is found has been listed, may be terminated, and was found through one that is known. -/
theorem Discovered.split (h : Discovered listed known (found ++ (child, parent) :: others)) :
    (child, parent) ∈ listed ∧ 4 < child ∧ parent ∈ known ++ found.map Prod.fst ∧
      child ∉ known ++ found.map Prod.fst := by
  obtain ⟨-, hlisted, hlarge, hparent, hnew, -⟩ := discovered_append.mp h
  exact ⟨hlisted, hlarge, hparent, hnew⟩

/-- Whoever is found is reached from one that was known. -/
theorem Discovered.reaches (h : Discovered listed known found) {through : UInt32 → UInt32 → Prop}
    (hthrough : ∀ child parent, (child, parent) ∈ listed → 4 < child → through parent child)
    (hknown : ∀ pid ∈ known, Relation.ReflTransGen through root pid) :
    ∀ pid ∈ found.map Prod.fst, Relation.ReflTransGen through root pid := by
  induction found generalizing known with
  | nil => exact fun pid hpid => absurd hpid List.not_mem_nil
  | cons entry found ih =>
      obtain ⟨child, parent⟩ := entry
      obtain ⟨hlisted, hlarge, hparent, -, hfound⟩ := h
      have hchild : Relation.ReflTransGen through root child :=
        (hknown parent hparent).tail (hthrough child parent hlisted hlarge)
      intro pid hpid
      obtain rfl | hlater := List.mem_cons.mp hpid
      · exact hchild
      · refine ih hfound (fun earlier hearlier => ?_) pid hlater
        obtain hold | hnew := List.mem_append.mp hearlier
        · exact hknown earlier hold
        · rw [List.mem_singleton.mp hnew]
          exact hchild

/-- Whoever is found may be terminated. -/
theorem Discovered.large (h : Discovered listed known found) :
    ∀ pid ∈ found.map Prod.fst, 4 < pid := by
  induction found generalizing known with
  | nil => exact fun pid hpid => absurd hpid List.not_mem_nil
  | cons entry found ih =>
      obtain ⟨child, parent⟩ := entry
      obtain ⟨-, hlarge, -, -, hfound⟩ := h
      intro pid hpid
      obtain rfl | hlater := List.mem_cons.mp hpid
      · exact hlarge
      · exact ih hfound pid hlater

end discovered

/-! ## Who is found at all -/

/-- A process is listed as a child that may be terminated. -/
def ChildOf (listed : List (UInt32 × UInt32)) (parent child : UInt32) : Prop :=
  (child, parent) ∈ listed ∧ 4 < child

section closed

variable {root parent : UInt32} {listed entries : List (UInt32 × UInt32)} {search : TreeSearch}

/-- The children of whoever was visited and is not on the frontier any more were visited. -/
def Closed (listed : List (UInt32 × UInt32)) (search : TreeSearch) : Prop :=
  ∀ parent ∈ search.visited, parent ∈ search.frontier ∨
    ∀ child, ChildOf listed parent child → child ∈ search.visited

/-- What the loop over the entries does to the frontier and the visited, when it is not broken
off. -/
structure Visits (parent : UInt32) (entries : List (UInt32 × UInt32)) (search next : TreeSearch) :
    Prop where
  children : ∀ child, (child, parent) ∈ entries → 4 < child → child ∈ next.visited
  visited : search.visited ⊆ next.visited
  frontier : search.frontier ⊆ next.frontier
  added : ∀ pid ∈ next.visited, pid ∈ search.visited ∨ pid ∈ next.frontier

theorem visits_visitChildren (parent : UInt32) (entries : List (UInt32 × UInt32))
    (search : TreeSearch)
    (hfew : (visitChildren parent entries search).descendants.length < 4096) :
    Visits parent entries search (visitChildren parent entries search) := by
  induction entries generalizing search with
  | nil =>
      exact ⟨fun child hchild => absurd hchild List.not_mem_nil, List.Subset.refl _,
        List.Subset.refl _, fun pid hpid => .inl hpid⟩
  | cons entry entries ih =>
      obtain ⟨child, childParent⟩ := entry
      unfold visitChildren at hfew ⊢
      dsimp only at hfew ⊢
      split_ifs at hfew ⊢ with hvisit hmany
      · exact absurd hfew (Nat.not_lt.mpr hmany)
      · have hrest := ih _ hfew
        refine ⟨?_, ?_, ?_, ?_⟩
        · intro other hother hlarge
          obtain hhere | hlater := List.mem_cons.mp hother
          · rw [(Prod.mk.inj hhere).1]
            exact hrest.visited List.mem_cons_self
          · exact hrest.children other hlater hlarge
        · exact List.Subset.trans (List.subset_cons_self _ _) hrest.visited
        · exact List.Subset.trans (List.subset_cons_self _ _) hrest.frontier
        · intro pid hpid
          obtain hold | hnew := hrest.added pid hpid
          · obtain rfl | hold := List.mem_cons.mp hold
            · exact .inr (hrest.frontier List.mem_cons_self)
            · exact .inl hold
          · exact .inr hnew
      · have hrest := ih search hfew
        refine ⟨?_, hrest.visited, hrest.frontier, hrest.added⟩
        intro other hother hlarge
        obtain hhere | hlater := List.mem_cons.mp hother
        · -- a child that is not visited now was visited before
          obtain ⟨rfl, rfl⟩ := Prod.mk.inj hhere
          simp only [true_and, not_and, not_not] at hvisit
          exact hrest.visited (hvisit hlarge)
        · exact hrest.children other hlater hlarge

/-- A search that has not stopped early has seen the children of whoever it took. -/
theorem closed_searchTree (turns : ℕ) (h : Closed listed search)
    (hfew : (searchTree listed turns search).descendants.length < 4096) :
    Closed listed (searchTree listed turns search) := by
  induction turns generalizing search with
  | zero => exact h
  | succ turns ih =>
      obtain ⟨found, frontier, visited⟩ := search
      unfold searchTree at hfew ⊢
      cases frontier with
      | nil => exact h
      | cons parent frontier =>
          dsimp only at hfew ⊢
          split_ifs at hfew ⊢ with hmany
          · omega
          · refine ih (fun pid hpid => ?_) hfew
            have hvisits := visits_visitChildren parent listed ⟨found, frontier, visited⟩
              (by omega)
            obtain hold | hnew := hvisits.added pid hpid
            · obtain hwaiting | hseen := h pid hold
              · obtain rfl | hwaiting := List.mem_cons.mp hwaiting
                · exact .inr fun child hchild => hvisits.children child hchild.1 hchild.2
                · exact .inl (hvisits.frontier hwaiting)
              · exact .inr fun child hchild => hvisits.visited (hseen child hchild)
            · exact .inl hnew

/-- A search that has ended stays as it is. -/
theorem searchTree_add (turns extra : ℕ) (hfew : search.descendants.length < 4096)
    (hended : (searchTree listed turns search).frontier = [] ∨
      4096 ≤ (searchTree listed turns search).descendants.length) :
    searchTree listed (turns + extra) search = searchTree listed turns search := by
  induction turns generalizing search with
  | zero =>
      obtain ⟨found, frontier, visited⟩ := search
      obtain hempty | hmany := hended
      · have hempty : frontier = [] := hempty
        rw [hempty]
        cases extra <;> rfl
      · exact absurd hfew (Nat.not_lt.mpr hmany)
  | succ turns ih =>
      obtain ⟨found, frontier, visited⟩ := search
      rw [Nat.succ_add]
      unfold searchTree at hended ⊢
      cases frontier with
      | nil => rfl
      | cons parent frontier =>
          dsimp only at hended ⊢
          split_ifs at hended ⊢ with hmany
          · rfl
          · exact ih (by omega) hended

end closed

/-! ## The tree -/

/-- The traversal ends, and finds the descendants: each once, without the root and without what may
not be terminated, and all of them when there are fewer than 4096; each of them is terminated before
the one through which it was found, and the root last. -/
structure TreeOrder (root : UInt32) (listed : List (UInt32 × UInt32)) : Prop where
  ends : ∀ extra,
    searchTree listed (listed.length + 1 + extra) ⟨[], [root], [root]⟩ =
      searchTree listed (listed.length + 1) ⟨[], [root], [root]⟩
  ended : (searchTree listed (listed.length + 1) ⟨[], [root], [root]⟩).frontier = [] ∨
    4096 ≤ (descendants root listed).length
  nodup : (descendants root listed).Nodup
  notRoot : root ∉ descendants root listed
  large : ∀ pid ∈ descendants root listed, 4 < pid
  reached : ∀ pid ∈ descendants root listed,
    Relation.ReflTransGen (fun parent child => (child, parent) ∈ listed) root pid
  complete : (descendants root listed).length < 4096 → ∀ pid,
    pid ∈ descendants root listed ↔
      pid ≠ root ∧ Relation.ReflTransGen (ChildOf listed) root pid
  found : (discoveries root listed).map Prod.fst = descendants root listed
  before : ∀ child parent, (child, parent) ∈ discoveries root listed →
    [child, parent].Sublist (terminationOrder root listed)
  last : (terminationOrder root listed).getLast? = some root

/-- A search that has ended early enough has found whoever can be reached. -/
theorem mem_descendants_iff {root : UInt32} {listed : List (UInt32 × UInt32)}
    (hfew : (descendants root listed).length < 4096) (pid : UInt32) :
    pid ∈ descendants root listed ↔
      pid ≠ root ∧ Relation.ReflTransGen (ChildOf listed) root pid := by
  have hnodup := (descendants_grown root listed).nodup
  constructor
  · intro hpid
    refine ⟨?_, ?_⟩
    · rintro rfl
      exact (List.nodup_cons.mp hnodup).1 hpid
    · rw [← map_fst_discoveries] at hpid
      refine (discovered_discoveries root listed).reaches
        (fun child parent hlisted hlarge => ⟨hlisted, hlarge⟩) (fun other hother => ?_) pid hpid
      rw [List.mem_singleton.mp hother]
  · rintro ⟨hne, hreached⟩
    have hinv := (searchInv_start root listed).searchTree (listed.length + 1)
    have hclosed : Closed listed (searchTree listed (listed.length + 1) ⟨[], [root], [root]⟩) :=
      closed_searchTree _ (fun other hother => .inl hother) hfew
    have hempty := (searchTree_ends root listed).resolve_right (Nat.not_le.mpr hfew)
    -- the frontier is empty, so whoever can be reached was visited
    have hvisited : pid ∈ (searchTree listed (listed.length + 1) ⟨[], [root], [root]⟩).visited := by
      induction hreached with
      | refl => exact absurd rfl hne
      | @tail parent child hpath hchild ih =>
          have hparent : parent ∈
              (searchTree listed (listed.length + 1) ⟨[], [root], [root]⟩).visited := by
            by_cases hroot : parent = root
            · rw [hroot]
              exact (hinv.visited root).mpr List.mem_cons_self
            · exact ih hroot
          obtain hwaiting | hseen := hclosed parent hparent
          · rw [hempty] at hwaiting
            cases hwaiting
          · exact hseen child hchild
    exact (List.mem_cons.mp ((hinv.visited pid).mp hvisited)).resolve_left hne

/-- A descendant is terminated before the process through which it was found. -/
theorem sublist_terminationOrder {root child parent : UInt32} {listed : List (UInt32 × UInt32)}
    (h : (child, parent) ∈ discoveries root listed) :
    [child, parent].Sublist (terminationOrder root listed) := by
  obtain ⟨found, others, hsplit⟩ := List.append_of_mem h
  have hdiscovered := discovered_discoveries root listed
  rw [hsplit] at hdiscovered
  obtain ⟨-, -, hparent, -⟩ := hdiscovered.split
  have horder : terminationOrder root listed =
      (([root] ++ found.map Prod.fst) ++ child :: others.map Prod.fst).reverse := by
    rw [terminationOrder, ← map_fst_discoveries, hsplit]
    simp
  rw [horder, ← List.reverse_sublist, List.reverse_reverse]
  have hfirst : [parent].Sublist ([root] ++ found.map Prod.fst) :=
    List.singleton_sublist.mpr hparent
  have hsecond : [child].Sublist (child :: others.map Prod.fst) :=
    List.singleton_sublist.mpr List.mem_cons_self
  exact hfirst.append hsecond

/-- **The order of the tree**, for every root and every list of processes with their parents. -/
theorem tree_order (root : UInt32) (listed : List (UInt32 × UInt32)) : TreeOrder root listed where
  ends extra := searchTree_add _ extra (Nat.zero_lt_succ 4095) (searchTree_ends root listed)
  ended := searchTree_ends root listed
  nodup := (List.nodup_cons.mp (descendants_grown root listed).nodup).2
  notRoot := (List.nodup_cons.mp (descendants_grown root listed).nodup).1
  large := by
    rw [← map_fst_discoveries]
    exact (discovered_discoveries root listed).large
  reached := by
    rw [← map_fst_discoveries]
    refine (discovered_discoveries root listed).reaches (fun child parent hlisted _ => hlisted)
      fun other hother => ?_
    rw [List.mem_singleton.mp hother]
  complete := mem_descendants_iff
  found := map_fst_discoveries root listed
  before _ _ := sublist_terminationOrder
  last := List.getLast?_concat

/-! ## The run -/

section run

variable {ownPid root pid : UInt32} {listed : List (UInt32 × UInt32)} {remaining : List UInt32}
  {world : ProcessWorld} {path : String}

/-- Before the snapshot nobody was terminated, and after it those that were, in the order of the
tree. -/
def InOrder (root : UInt32) (world : ProcessWorld) : Prop :=
  match world.snapshot with
  | none => world.terminated = []
  | some snapshot =>
      (world.terminated.map Prod.fst).Sublist (terminationOrder root snapshot.relationships)

/-- Those that remain come after whoever was terminated. -/
def Ahead (root : UInt32) (listed : List (UInt32 × UInt32)) (remaining : List UInt32)
    (world : ProcessWorld) : Prop :=
  (∃ snapshot, world.snapshot = some snapshot ∧ snapshot.relationships = listed) ∧
    ∃ done, terminationOrder root listed = done ++ remaining ∧
      (world.terminated.map Prod.fst).Sublist done

theorem Ahead.inOrder (h : Ahead root listed remaining world) : InOrder root world := by
  obtain ⟨⟨snapshot, hsnapshot, rfl⟩, done, horder, hsub⟩ := h
  unfold InOrder
  rw [hsnapshot]
  dsimp only
  rw [horder]
  exact hsub.trans (List.sublist_append_left _ _)

/-- The next one is passed over. -/
theorem Ahead.drop (h : Ahead root listed (pid :: remaining) world) :
    Ahead root listed remaining world := by
  obtain ⟨htaken, done, horder, hsub⟩ := h
  exact ⟨htaken, done ++ [pid], by rw [horder, List.append_assoc]; rfl,
    hsub.trans (List.sublist_append_left _ _)⟩

theorem events_snapshot (events : List ProcessEvent) (world : ProcessWorld) :
    (events.foldl ProcessWorld.event world).snapshot = world.snapshot := by
  induction events generalizing world with
  | nil => rfl
  | cons event events ih => exact (ih _).trans (event_snapshot world event)

/-- A call that neither lists nor terminates changes neither the snapshot nor who was terminated. -/
theorem Ahead.call (h : Ahead root listed remaining world) (op : ProcessOp)
    (choice : ProcessChoice) (hlists : op ≠ .listProcesses)
    (hterminates : ∀ pid process, op ≠ .terminateProcess pid process) :
    Ahead root listed remaining (processAnswer op choice world).2 := by
  have hsnapshot : (processAnswer op choice world).2.snapshot = world.snapshot := by
    rw [← events_snapshot choice.events world]
    unfold processAnswer
    cases op with
    | listProcesses => exact absurd rfl hlists
    | terminateProcess pid process => exact absurd rfl (hterminates pid process)
    | samePath left right => rfl
    | _ =>
        unfold processCall
        dsimp only
        split <;> rfl
  have hterminated : (processAnswer op choice world).2.terminated = world.terminated := by
    rw [← events_terminated choice.events world]
    exact (terminated_call hterminates choice _).1
  unfold Ahead
  rwa [hsnapshot, hterminated]

/-- The next one is terminated, or that fails. -/
theorem Ahead.terminates (h : Ahead root listed (pid :: remaining) world) (process : Process)
    (choice : ProcessChoice) :
    Ahead root listed remaining (processAnswer (.terminateProcess pid process) choice world).2 := by
  have hevents : Ahead root listed (pid :: remaining)
      (choice.events.foldl ProcessWorld.event world) := by
    unfold Ahead
    rwa [events_snapshot, events_terminated]
  unfold processAnswer processCall
  dsimp only
  split
  · exact hevents.drop
  split_ifs
  · obtain ⟨htaken, done, horder, hsub⟩ := hevents
    refine ⟨htaken, done ++ [pid], by rw [horder, List.append_assoc]; rfl, ?_⟩
    rw [List.map_append]
    exact hsub.append (List.Sublist.refl _)
  · exact hevents.drop

theorem safe_controlProcess_ahead (h : Ahead root listed (pid :: remaining) world) :
    Safe processAnswer AnyChoice (fun _ => InOrder root) (fun _ => Ahead root listed remaining)
      (controlProcess ownPid "terminate" pid path).run world := by
  unfold controlProcess
  rw [if_pos rfl]
  split_ifs
  · exact h.drop
  refine safe_tryBind.mpr ⟨h.inOrder, fun choice _ => ?_⟩
  have himage := h.call (.processImagePath pid) choice nofun nofun
  cases (processAnswer (.processImagePath pid) choice world).1 with
  | error error => exact himage.drop
  | ok actual =>
      refine safe_liftBind.mpr (safe_perform.mpr ⟨himage.inOrder, fun choice _ => ?_⟩)
      have hpath := himage.call (.samePath actual path) choice nofun nofun
      generalize processAnswer (.samePath actual path) choice
        (processAnswer (.processImagePath pid) _ world).2 = answered at hpath ⊢
      obtain ⟨same, after⟩ := answered
      cases same with
      | false => exact hpath.drop
      | true =>
          have hstill : Ahead root listed (pid :: remaining) after := hpath
          refine safe_tryBind.mpr (safe_orApi ⟨hstill.inOrder, fun choice _ => ?_⟩)
          have hopens := hstill.call (.openProcess pid) choice nofun nofun
          cases (processAnswer (.openProcess pid) choice after).1 with
          | error error => exact hopens.drop
          | ok process =>
              refine safe_tryBind.mpr (safe_orApi ⟨hopens.inOrder, fun choice _ => ?_⟩)
              have hgone := hopens.terminates process choice
              cases (processAnswer (.terminateProcess pid process) choice
                  (processAnswer (.openProcess pid) _ after).2).1 with
              | error error => exact hgone
              | ok _ => exact hgone

theorem safe_terminateDescendants_ahead {children : List UInt32}
    (h : Ahead root listed (children ++ remaining) world) :
    Safe processAnswer AnyChoice (fun _ => InOrder root) (fun _ => Ahead root listed remaining)
      (terminateDescendants ownPid children) world := by
  induction children generalizing world with
  | nil => exact h
  | cons child children ih =>
      have hnext : ∀ {after}, Ahead root listed (children ++ remaining) after →
          ∀ {post : List UInt32 × ℕ → List UInt32 × ℕ},
          Safe processAnswer AnyChoice (fun _ => InOrder root)
            (fun _ => Ahead root listed remaining)
            (terminateDescendants ownPid children >>= fun counts => pure (post counts)) after :=
        fun hafter => (ih hafter).bind fun _ _ hend => hend
      have hchild : Ahead root listed (child :: (children ++ remaining)) world := h
      refine ⟨h.inOrder, fun choice _ => ?_⟩
      have himage := hchild.call (.processImagePath child) choice nofun nofun
      cases (processAnswer (.processImagePath child) choice world).1 with
      | error error => exact hnext himage.drop
      | ok path =>
          refine (safe_controlProcess_ahead himage).bind fun result after hafter => ?_
          cases result with
          | ok _ => exact hnext hafter
          | error _ => exact hnext hafter

/-- Nobody is terminated before the snapshot. -/
theorem Untouched.inOrder (h : Untouched world) : InOrder root world := by
  unfold InOrder
  rw [h.snapshot]
  exact h.terminated

/-- After the snapshot all of the tree remains, or the listing failed and nobody is terminated. -/
theorem Untouched.lists_ahead (h : Untouched world) (root : UInt32) (choice : ProcessChoice) :
    match (processAnswer .listProcesses choice world).1 with
    | .ok listed => Ahead root listed ((descendants root listed).reverse ++ [root])
        (processAnswer .listProcesses choice world).2
    | .error _ => InOrder root (processAnswer .listProcesses choice world).2 := by
  have hevents := h.events choice.events
  unfold processAnswer processCall
  dsimp only
  cases choice.failure with
  | some error => exact hevents.inOrder
  | none =>
      refine ⟨⟨_, rfl, rfl⟩, [], rfl, ?_⟩
      dsimp only
      rw [hevents.terminated]
      exact List.nil_sublist []

/-- **Every run terminates in the order of the tree** that it has found. -/
theorem terminated_in_order (ownPid root : UInt32) (path : String) (table : ProcessTable)
    (choices : List ProcessChoice) :
    InOrder root (exec processAnswer (terminateProcessTree ownPid root path).run (.initial table)
      choices).2 := by
  have hstart : Untouched (.initial table) := ⟨rfl, rfl, rfl, rfl⟩
  have hsafe : Safe processAnswer AnyChoice (fun _ => InOrder root) (fun _ => InOrder root)
      (terminateProcessTree ownPid root path).run (.initial table) := by
    unfold terminateProcessTree
    refine safe_tryBind.mpr ⟨hstart.inOrder, fun choice _ => ?_⟩
    have himage := hstart.harmless (.processImagePath root) choice trivial
    cases (processAnswer (.processImagePath root) choice (.initial table)).1 with
    | error error => exact himage.inOrder
    | ok actual =>
        refine safe_liftBind.mpr (safe_perform.mpr ⟨himage.inOrder, fun choice _ => ?_⟩)
        have hpath := himage.harmless (.samePath actual path) choice trivial
        generalize processAnswer (.samePath actual path) choice
          (processAnswer (.processImagePath root) _ _).2 = answered at hpath ⊢
        obtain ⟨same, after⟩ := answered
        cases same with
        | false => exact hpath.inOrder
        | true =>
            have hstill : Untouched after := hpath
            refine safe_tryBind.mpr (safe_orApi ⟨hstill.inOrder, fun choice _ => ?_⟩)
            have hlists := hstill.lists_ahead root choice
            generalize processAnswer .listProcesses choice after = answered at hlists ⊢
            obtain ⟨answer, listing⟩ := answered
            cases answer with
            | error error => exact hlists
            | ok listed =>
                have hahead : Ahead root listed ((descendants root listed).reverse ++ [root])
                    listing := hlists
                refine safe_liftBind.mpr ((safe_terminateDescendants_ahead hahead).mono
                  fun counts after hafter => ?_)
                refine safe_tryBind.mpr ((safe_controlProcess_ahead hafter).mono
                  fun result after hend => ?_)
                cases result with
                | ok _ => exact hend.inOrder
                | error _ => exact hend.inOrder
  exact hsafe.invariant (allowed_of_forall (fun _ _ => trivial) _ _ choices) (fun _ _ h => h)
    fun _ _ h => h

end run

end OpenGuard.Windows
