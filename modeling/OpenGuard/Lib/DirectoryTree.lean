import Mathlib.Data.List.Nodup
import Mathlib.Data.List.Infix
import Mathlib.Data.Set.Card

/-!
# Trees of directories

What a walk through a file system can meet: files, symbolic links, other things, entries whose kind
cannot be told, and directories, of which some cannot be read. A place in a tree is the list of the
names that lead to it.

* `FileAt`: a file that is reached without links through directories that can be read.
* `filesBelow`, `mem_filesBelow`, `nodup_filesBelow`: the list of all of them, each once.
* `lookup`, `FileAt.of_lookup`: what is at a place, also below directories that cannot be read.
-/

namespace OpenGuard.Lib

/-- What is at a place in a file system. -/
inductive FileNode where
  | file
  | link
  | other
  | unknown
  | directory (readable : Bool) (entries : List (String × FileNode))

namespace FileNode

/-- An entry of a directory is smaller than the directory. -/
theorem sizeOf_lt {entry : String × FileNode} {entries : List (String × FileNode)}
    (h : entry ∈ entries) (readable : Bool) :
    sizeOf entry.2 < sizeOf (directory readable entries) := by
  have hentry := List.sizeOf_lt_of_mem h
  obtain ⟨name, node⟩ := entry
  simp only [Prod.mk.sizeOf_spec, directory.sizeOf_spec] at hentry ⊢
  omega

/-- Induction over the entries of directories. -/
theorem inductionOn {motive : FileNode → Prop}
    (leaf : ∀ node, (∀ readable entries, node ≠ directory readable entries) → motive node)
    (directory : ∀ readable entries, (∀ entry ∈ entries, motive entry.2) →
      motive (directory readable entries)) : ∀ node, motive node
  | .file => leaf _ nofun
  | .link => leaf _ nofun
  | .other => leaf _ nofun
  | .unknown => leaf _ nofun
  | .directory readable entries =>
      directory readable entries fun entry _ => inductionOn leaf directory entry.2
termination_by node => sizeOf node
decreasing_by exact sizeOf_lt ‹_› _

/-- The names lead to a file: no link is followed, and every directory on the way can be read. -/
inductive FileAt : FileNode → List String → Prop
  | file : FileAt .file []
  | entry {entries : List (String × FileNode)} {name : String} {node : FileNode}
      {names : List String} : (name, node) ∈ entries → FileAt node names →
      FileAt (.directory true entries) (name :: names)

/-- All files below a node, as the names that lead to them. -/
def filesBelow : FileNode → List (List String)
  | .file => [[]]
  | .directory true entries =>
      entries.attach.flatMap fun ⟨entry, _⟩ => (filesBelow entry.2).map (entry.1 :: ·)
  | _ => []
termination_by node => sizeOf node
decreasing_by exact sizeOf_lt ‹_› _

@[simp] theorem filesBelow_file : filesBelow .file = [[]] := by rw [filesBelow]

@[simp] theorem filesBelow_directory (entries : List (String × FileNode)) :
    filesBelow (.directory true entries) =
      entries.flatMap fun entry => (filesBelow entry.2).map (entry.1 :: ·) := by
  rw [filesBelow]
  conv_rhs => rw [← List.attach_map_subtype_val entries, List.flatMap_map]

/-- There are no files below what is neither a file nor a directory that can be read. -/
theorem filesBelow_eq_nil {node : FileNode} (hfile : node ≠ .file)
    (hreadable : ∀ entries, node ≠ .directory true entries) : filesBelow node = [] := by
  rw [filesBelow]
  · exact hfile
  · exact hreadable

@[simp] theorem filesBelow_unreadable (entries : List (String × FileNode)) :
    filesBelow (.directory false entries) = [] := filesBelow_eq_nil (by simp) (by simp)

@[simp] theorem filesBelow_link : filesBelow .link = [] := filesBelow_eq_nil (by simp) (by simp)

@[simp] theorem filesBelow_other : filesBelow .other = [] := filesBelow_eq_nil (by simp) (by simp)

@[simp] theorem filesBelow_unknown : filesBelow .unknown = [] :=
  filesBelow_eq_nil (by simp) (by simp)

/-- **The list has the files that can be reached.** -/
theorem mem_filesBelow {node : FileNode} {names : List String} :
    names ∈ node.filesBelow ↔ FileAt node names := by
  induction node using inductionOn generalizing names with
  | leaf node hleaf =>
      cases node with
      | file =>
          rw [filesBelow_file, List.mem_singleton]
          constructor
          · rintro rfl
            exact .file
          · intro h
            cases h
            rfl
      | directory readable entries => exact absurd rfl (hleaf readable entries)
      | link => simpa using nofun
      | other => simpa using nofun
      | unknown => simpa using nofun
  | directory readable entries ih =>
      cases readable with
      | false => simpa using nofun
      | true =>
          rw [filesBelow_directory, List.mem_flatMap]
          constructor
          · rintro ⟨entry, hentry, hnames⟩
            obtain ⟨rest, hrest, rfl⟩ := List.mem_map.mp hnames
            exact .entry hentry ((ih entry hentry).mp hrest)
          · intro h
            cases h with
            | @entry _ name node rest hentry hrest =>
                exact ⟨(name, node), hentry,
                  List.mem_map.mpr ⟨rest, (ih (name, node) hentry).mpr hrest, rfl⟩⟩

/-- The names in every directory are valid, and no two of them are the same. -/
inductive WellNamed (valid : String → Prop) : FileNode → Prop
  | leaf {node : FileNode} : (∀ readable entries, node ≠ directory readable entries) →
      WellNamed valid node
  | directory {readable : Bool} {entries : List (String × FileNode)} :
      (entries.map Prod.fst).Nodup → (∀ entry ∈ entries, valid entry.1) →
      (∀ entry ∈ entries, WellNamed valid entry.2) → WellNamed valid (.directory readable entries)

section wellNamed

variable {valid : String → Prop} {readable : Bool} {entries : List (String × FileNode)}

@[simp] theorem wellNamed_file : WellNamed valid .file := .leaf nofun

@[simp] theorem wellNamed_directory :
    WellNamed valid (.directory readable entries) ↔
      (entries.map Prod.fst).Nodup ∧ (∀ entry ∈ entries, valid entry.1) ∧
        ∀ entry ∈ entries, WellNamed valid entry.2 := by
  constructor
  · intro h
    cases h with
    | leaf hleaf => exact absurd rfl (hleaf readable entries)
    | directory hnodup hvalid hentries => exact ⟨hnodup, hvalid, hentries⟩
  · rintro ⟨hnodup, hvalid, hentries⟩
    exact .directory hnodup hvalid hentries

/-- **The list has every file once.** -/
theorem nodup_filesBelow {node : FileNode} (h : WellNamed valid node) : node.filesBelow.Nodup := by
  induction node using inductionOn with
  | leaf node hleaf => cases node <;> simp_all
  | directory readable entries ih =>
      cases readable with
      | false => simp
      | true =>
          obtain ⟨hnodup, -, hentries⟩ := wellNamed_directory.mp h
          rw [filesBelow_directory, List.nodup_flatMap]
          constructor
          · intro entry hentry
            exact (ih entry hentry (hentries entry hentry)).map (List.cons_injective)
          · rw [List.Nodup, List.pairwise_map] at hnodup
            refine hnodup.imp fun {first second} hne names hfirst hsecond => ?_
            obtain ⟨rest, -, rfl⟩ := List.mem_map.mp hfirst
            obtain ⟨other, -, hother⟩ := List.mem_map.mp hsecond
            exact hne (List.cons.inj hother).1.symm

/-- The names that lead to a file are valid. -/
theorem FileAt.valid_names {node : FileNode} {names : List String} (hfile : FileAt node names)
    (h : WellNamed valid node) : ∀ name ∈ names, valid name := by
  induction hfile with
  | file => simp
  | @entry entries name node names hentry _ ih =>
      obtain ⟨-, hvalid, hentries⟩ := wellNamed_directory.mp h
      intro other hother
      rcases List.mem_cons.mp hother with rfl | hother
      · exact hvalid _ hentry
      · exact ih (hentries _ hentry) other hother

/-- What is at a place. A directory that cannot be read can be passed. -/
def lookup : FileNode → List String → Option FileNode
  | node, [] => some node
  | .directory _ entries, name :: names =>
      match entries.find? fun entry => entry.1 = name with
      | some entry => lookup entry.2 names
      | none => none
  | _, _ :: _ => none

@[simp] theorem lookup_nil (node : FileNode) : node.lookup [] = some node := by
  rw [lookup]

/-- What is at a place is named as well as the tree is. -/
theorem WellNamed.lookup {node here : FileNode} {names : List String} (h : WellNamed valid node)
    (hhere : node.lookup names = some here) : WellNamed valid here := by
  induction names generalizing node with
  | nil =>
      obtain rfl : node = here := by simpa using hhere
      exact h
  | cons name names ih =>
      cases node with
      | directory readable entries =>
          obtain ⟨-, -, hentries⟩ := wellNamed_directory.mp h
          simp only [FileNode.lookup] at hhere
          split at hhere
          · rename_i entry hentry
            exact ih (hentries entry (List.mem_of_find?_eq_some hentry)) hhere
          · cases hhere
      | _ => simp [FileNode.lookup] at hhere

/-- A file below a place is one of what is there. -/
theorem FileAt.of_lookup {node here : FileNode} {names rest : List String}
    (h : WellNamed valid node) (hhere : node.lookup names = some here)
    (hfile : FileAt node (names ++ rest)) : FileAt here rest := by
  induction names generalizing node with
  | nil =>
      obtain rfl : node = here := by simpa using hhere
      exact hfile
  | cons name names ih =>
      cases hfile with
      | @entry entries _ below _ hentry hfile =>
          obtain ⟨hnodup, -, hentries⟩ := wellNamed_directory.mp h
          simp only [FileNode.lookup] at hhere
          split at hhere
          · rename_i found hfound
            have hname : found.1 = name := by simpa using List.find?_some hfound
            have hsame : found = (name, below) :=
              List.inj_on_of_nodup_map hnodup (List.mem_of_find?_eq_some hfound) hentry hname
            rw [hsame] at hhere
            exact ih (hentries _ hentry) hhere hfile
          · cases hhere

end wellNamed

end FileNode

end OpenGuard.Lib
