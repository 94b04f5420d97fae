import OpenGuard.Lib.Fallible
import Mathlib.Data.List.Find
import Mathlib.Data.List.Induction
import Mathlib.Data.List.Nodup

/-!
# Directories and files

A tree of directories and files with the operations of `std::fs` on it. A disk has its own notion of
which names are the same: `FileNames.key` is the same for two spellings of one name. An entry of a
directory keeps the spelling it was created with.

* `alter`: a change at the end of a path, and what it does to the rest of the tree.
* `fileAt_write`, `fileAt_createDirAll`: what a file holds afterwards.
* `childNames_alter`: the names in a directory afterwards.
-/

namespace OpenGuard.Lib

/-- How a disk treats names: those with the same key name the same entry, and an entry is created
under an accepted name only. -/
structure FileNames where
  key : String → String
  accepts : String → Bool

/-- A file, or a directory with its entries. -/
inductive FileTree where
  | file (content : List UInt8)
  | directory (entries : List (String × FileTree))
  deriving Inhabited

/-- Why an operation fails. -/
inductive IoError where
  | notFound
  | notADirectory
  | isADirectory
  | alreadyExists
  | invalidName
  | invalidData
  deriving DecidableEq, Inhabited

namespace FileTree

/-- The entry of that name. -/
def entry (names : FileNames) (name : String) (entries : List (String × FileTree)) :
    Option FileTree :=
  (entries.find? fun e => names.key e.1 = names.key name).map Prod.snd

/-- The entry of that name is replaced, and keeps its spelling, or it is created. -/
def setEntry (names : FileNames) (name : String) (tree : FileTree) :
    List (String × FileTree) → List (String × FileTree)
  | [] => [(name, tree)]
  | e :: rest =>
      if names.key e.1 = names.key name then (e.1, tree) :: rest
      else e :: setEntry names name tree rest

/-- A name is added to the names of a directory, unless it is there in some spelling. -/
def addName (names : FileNames) (spellings : List String) (name : String) : List String :=
  if names.key name ∈ spellings.map names.key then spellings else spellings ++ [name]

/-- What is at the end of a path. -/
def lookup (names : FileNames) : List String → Option FileTree → Option FileTree
  | [], node => node
  | name :: path, some (.directory entries) => lookup names path (entry names name entries)
  | _ :: _, _ => none

/-- The content, of a file. -/
def content : Option FileTree → Option (List UInt8)
  | some (.file content) => some content
  | _ => none

/-- What the file at the end of a path holds. -/
def fileAt (names : FileNames) (path : List String) (node : Option FileTree) :
    Option (List UInt8) :=
  content (lookup names path node)

/-- The names in the directory at the end of a path. -/
def childNames (names : FileNames) (path : List String) (node : Option FileTree) : List String :=
  match lookup names path node with
  | some (.directory entries) => entries.map Prod.fst
  | _ => []

/-- The entries of a directory; a missing one may be made. -/
def opened (make : Bool) : Option FileTree → Except IoError (List (String × FileTree))
  | some (.directory entries) => .ok entries
  | some (.file _) => .error .notADirectory
  | none => if make then .ok [] else .error .notFound

/-- A change at the end of a path; the directories on the way may be made. -/
def alter (names : FileNames) (make : Bool) (f : Option FileTree → Except IoError FileTree) :
    List String → Option FileTree → Except IoError FileTree
  | [], node => f node
  | name :: path, node =>
      match opened make node with
      | .error error => .error error
      | .ok entries =>
          if (entry names name entries).isNone && !names.accepts name then .error .invalidName
          else
            (alter names make f path (entry names name entries)).map fun child =>
              .directory (setEntry names name child entries)

/-! ## The operations -/

/-- A directory is made, where there is none. -/
def makeDirectory : Option FileTree → Except IoError FileTree
  | none => .ok (.directory [])
  | some (.directory entries) => .ok (.directory entries)
  | some (.file _) => .error .alreadyExists

/-- A file is created, or its content is replaced. -/
def putFile (content : List UInt8) : Option FileTree → Except IoError FileTree
  | some (.directory _) => .error .isADirectory
  | _ => .ok (.file content)

/-- A tree is put where there is nothing. -/
def putNew (tree : FileTree) : Option FileTree → Except IoError FileTree
  | none => .ok tree
  | some _ => .error .alreadyExists

/-- `fs::create_dir_all` -/
def createDirAll (names : FileNames) (path : List String) (tree : FileTree) :
    Except IoError FileTree :=
  alter names true makeDirectory path (some tree)

/-- `fs::write` -/
def write (names : FileNames) (path : List String) (content : List UInt8) (tree : FileTree) :
    Except IoError FileTree :=
  alter names false (putFile content) path (some tree)

/-- What `fs::rename` does at the new place of a tree. -/
def attach (names : FileNames) (path : List String) (tree moved : FileTree) :
    Except IoError FileTree :=
  alter names false (putNew moved) path (some tree)

/-- What is at the end of a path is gone. -/
def detach (names : FileNames) : List String → Option FileTree → Option FileTree
  | [], _ => none
  | name :: path, some (.directory entries) =>
      match detach names path (entry names name entries) with
      | some child => some (.directory (setEntry names name child entries))
      | none => some (.directory (entries.filter fun e => names.key e.1 ≠ names.key name))
  | _ :: _, node => node

/-- `fs::rename` of a directory, to a place where there is nothing. -/
def rename (names : FileNames) (source target : List String) (node : Option FileTree) :
    Except IoError (Option FileTree) :=
  match lookup names source node with
  | none => .error .notFound
  | some moved => (alter names false (putNew moved) target node).map fun tree =>
      detach names source (some tree)

/-- `Path::exists` -/
def pathExists (names : FileNames) (path : List String) (node : Option FileTree) : Bool :=
  (lookup names path node).isSome

/-- `fs::read` -/
def read (names : FileNames) (path : List String) (node : Option FileTree) :
    Except IoError (List UInt8) :=
  match lookup names path node with
  | some (.file content) => .ok content
  | some (.directory _) => .error .isADirectory
  | none => .error .notFound

/-- The bytes of a text. -/
def utf8 (text : String) : List UInt8 := text.toUTF8.data.toList

/-- `fs::read_to_string` -/
def readToString (names : FileNames) (path : List String) (node : Option FileTree) :
    Except IoError String := do
  let content ← read names path node
  okOr .invalidData (String.fromUTF8? content.toByteArray)

/-- `fs::read_dir`, the names of the entries. -/
def readDir (names : FileNames) (path : List String) (node : Option FileTree) :
    Except IoError (List String) :=
  match lookup names path node with
  | some (.directory entries) => .ok (entries.map Prod.fst)
  | some (.file _) => .error .notADirectory
  | none => .error .notFound

/-! ## Entries -/

section entries

variable {names : FileNames} {name other : String} {tree : FileTree}
  {entries : List (String × FileTree)}

@[simp] theorem entry_nil : entry names name [] = none := rfl

theorem entry_congr (h : names.key other = names.key name) :
    entry names other entries = entry names name entries := by
  rw [entry, entry, h]

theorem entry_setEntry (h : names.key other = names.key name) :
    entry names other (setEntry names name tree entries) = some tree := by
  induction entries with
  | nil => simp [setEntry, entry, h]
  | cons e rest ih =>
      rw [setEntry]
      split_ifs with he
      · simp [entry, h, he]
      · rw [entry, List.find?_cons_of_neg (by simpa [h] using he)]
        exact ih

theorem entry_setEntry_of_ne (h : names.key other ≠ names.key name) :
    entry names other (setEntry names name tree entries) = entry names other entries := by
  induction entries with
  | nil => simp [setEntry, entry, Ne.symm h]
  | cons e rest ih =>
      rw [setEntry]
      split_ifs with he
      · have hother : ¬names.key e.1 = names.key other := fun heq => h (heq.symm.trans he)
        rw [entry, entry, List.find?_cons_of_neg (by simpa using hother),
          List.find?_cons_of_neg (by simpa using hother)]
      · unfold entry at ih ⊢
        rw [List.find?_cons, List.find?_cons]
        split
        · rfl
        · exact ih

/-- Putting back what is there changes nothing. -/
theorem setEntry_entry (h : entry names name entries = some tree) :
    setEntry names name tree entries = entries := by
  induction entries with
  | nil => cases h
  | cons e rest ih =>
      rw [setEntry]
      split_ifs with he
      · rw [entry, List.find?_cons_of_pos (by simpa using he)] at h
        rw [← Option.some.inj h]
      · rw [entry, List.find?_cons_of_neg (by simpa using he)] at h
        rw [ih h]

theorem map_fst_setEntry :
    (setEntry names name tree entries).map Prod.fst =
      addName names (entries.map Prod.fst) name := by
  induction entries with
  | nil => rfl
  | cons e rest ih =>
      rw [setEntry]
      split_ifs with he
      · simp [addName, he]
      · rw [List.map_cons, ih, addName, addName]
        have hne : names.key name ≠ names.key e.1 := fun heq => he heq.symm
        simp only [List.map_cons, List.mem_cons, hne, false_or]
        split_ifs <;> rfl

/-- A name that was added is not added once more. -/
theorem addName_addName (spellings : List String) (name : String) :
    addName names (addName names spellings name) name = addName names spellings name := by
  have hmem : names.key name ∈ (addName names spellings name).map names.key := by
    unfold addName
    split_ifs with h
    · exact h
    · simp
  exact if_pos hmem

end entries

/-! ## Paths -/

section paths

variable {names : FileNames} {make : Bool} {f : Option FileTree → Except IoError FileTree}
  {name : String} {path other : List String} {node : Option FileTree} {tree : FileTree}
  {entries : List (String × FileTree)}

@[simp] theorem lookup_none (path : List String) : lookup names path none = none := by
  cases path <;> rfl

theorem lookup_append (path other : List String) (node : Option FileTree) :
    lookup names (path ++ other) node = lookup names other (lookup names path node) := by
  induction path generalizing node with
  | nil => rfl
  | cons name path ih =>
      rcases node with _ | ⟨content⟩ | ⟨entries⟩
      · simp
      · exact (lookup_none other).symm
      · exact ih _

/-- Paths with the same keys lead to the same place. -/
theorem lookup_congr (h : other.map names.key = path.map names.key) (node : Option FileTree) :
    lookup names other node = lookup names path node := by
  induction path generalizing other node with
  | nil => rw [List.map_eq_nil_iff.mp h]
  | cons name path ih =>
      obtain ⟨first, rest, rfl, hfirst, hrest⟩ := List.map_eq_cons_iff.mp h
      rcases node with _ | ⟨content⟩ | ⟨entries⟩
      · rfl
      · rfl
      · rw [lookup, lookup, entry_congr hfirst]
        exact ih hrest _

theorem fileAt_congr (h : other.map names.key = path.map names.key) (node : Option FileTree) :
    fileAt names other node = fileAt names path node := by
  rw [fileAt, fileAt, lookup_congr h]

theorem lookup_of_opened (h : opened make node = .ok entries) (name : String)
    (path : List String) :
    lookup names (name :: path) node = lookup names path (entry names name entries) := by
  rcases node with _ | ⟨content⟩ | ⟨entries'⟩
  · cases make with
    | false => cases h
    | true =>
        cases h
        exact (lookup_none path).symm
  · cases h
  · cases h
    rfl

/-- What a change does to the directory where its path starts. -/
theorem alter_cons (h : alter names make f (name :: path) node = .ok tree) :
    ∃ entries child, opened make node = .ok entries ∧
      alter names make f path (entry names name entries) = .ok child ∧
      tree = .directory (setEntry names name child entries) := by
  rw [alter] at h
  split at h
  · cases h
  · next entries hopened =>
      split_ifs at h
      cases hchild : alter names make f path (entry names name entries) with
      | error error =>
          rw [hchild] at h
          cases h
      | ok child =>
          rw [hchild] at h
          exact ⟨entries, child, hopened, hchild, (Except.ok.inj h).symm⟩

/-- The change is made at the end of the path, -/
theorem lookup_alter (h : alter names make f path node = .ok tree) :
    ∃ after, f (lookup names path node) = .ok after ∧
      lookup names path (some tree) = some after := by
  induction path generalizing node tree with
  | nil => exact ⟨tree, h, rfl⟩
  | cons name path ih =>
      obtain ⟨entries, child, hopened, hchild, rfl⟩ := alter_cons h
      obtain ⟨after, hf, hafter⟩ := ih hchild
      refine ⟨after, ?_, ?_⟩
      · rw [lookup_of_opened hopened, hf]
      · rw [lookup, entry_setEntry rfl, hafter]

/-- and what lies beside its first directory stays. -/
theorem lookup_alter_of_ne {first : String} (h : alter names make f (name :: path) node = .ok tree)
    (hne : names.key first ≠ names.key name) (rest : List String) :
    lookup names (first :: rest) (some tree) = lookup names (first :: rest) node := by
  obtain ⟨entries, child, hopened, -, rfl⟩ := alter_cons h
  rw [lookup, entry_setEntry_of_ne hne, lookup_of_opened hopened]

/-- A change that leaves the files below it leaves every file but the one at its place. -/
theorem fileAt_alter_of_ne
    (hf : ∀ node after, f node = .ok after → ∀ first rest,
      fileAt names (first :: rest) (some after) = fileAt names (first :: rest) node)
    (h : alter names make f path node = .ok tree)
    (hne : other.map names.key ≠ path.map names.key) :
    fileAt names other (some tree) = fileAt names other node := by
  induction path generalizing other node tree with
  | nil =>
      cases other with
      | nil => exact absurd rfl hne
      | cons first rest => exact hf node tree h first rest
  | cons name path ih =>
      obtain ⟨entries, child, hopened, hchild, rfl⟩ := alter_cons h
      cases other with
      | nil =>
          -- a directory holds nothing, as before
          rcases node with _ | ⟨content⟩ | ⟨entries⟩
          · rfl
          · cases hopened
          · rfl
      | cons first rest =>
          by_cases hfirst : names.key first = names.key name
          · have hrest : rest.map names.key ≠ path.map names.key := fun heq =>
              hne (by rw [List.map_cons, List.map_cons, hfirst, heq])
            have hstep := ih hchild hrest
            unfold fileAt at hstep ⊢
            rw [lookup, entry_setEntry hfirst, lookup_of_opened hopened, entry_congr hfirst, hstep]
          · rw [fileAt, fileAt, lookup_alter_of_ne h hfirst]

/-- The first step of a change adds a name to the directory where it is taken. -/
theorem childNames_alter (front : List String) (name : String) (rest : List String)
    (h : alter names make f (front ++ name :: rest) node = .ok tree) :
    childNames names front (some tree) = addName names (childNames names front node) name := by
  induction front generalizing node tree with
  | nil =>
      obtain ⟨entries, child, hopened, -, rfl⟩ := alter_cons h
      have hnames : childNames names [] node = entries.map Prod.fst := by
        rcases node with _ | ⟨content⟩ | ⟨entries'⟩
        · cases make with
          | false => cases hopened
          | true =>
              cases hopened
              rfl
        · cases hopened
        · cases hopened
          rfl
      rw [hnames]
      exact map_fst_setEntry
  | cons first front ih =>
      obtain ⟨entries, child, hopened, hchild, rfl⟩ := alter_cons h
      have hstep := ih hchild
      unfold childNames at hstep ⊢
      rw [lookup, entry_setEntry rfl, lookup_of_opened hopened, hstep]

theorem childNames_alter_of_ne {first : String}
    (h : alter names make f (name :: path) node = .ok tree)
    (hne : names.key first ≠ names.key name) (rest : List String) :
    childNames names (first :: rest) (some tree) = childNames names (first :: rest) node := by
  rw [childNames, childNames, lookup_alter_of_ne h hne]

end paths

/-! ## What the operations do -/

section operations

variable {names : FileNames} {path other : List String} {tree after : FileTree}
  {content : List UInt8}

/-- The written file has the content, every other one what it had. -/
theorem fileAt_write (h : write names path content tree = .ok after) (other : List String) :
    fileAt names other (some after) =
      if other.map names.key = path.map names.key then some content
      else fileAt names other (some tree) := by
  split_ifs with hkeys
  · obtain ⟨written, hput, hlookup⟩ := lookup_alter h
    rw [fileAt, lookup_congr hkeys, hlookup]
    unfold putFile at hput
    split at hput
    · cases hput
    · rw [← Except.ok.inj hput]
      rfl
  · refine fileAt_alter_of_ne (fun node written hput first rest => ?_) h hkeys
    unfold putFile at hput
    split at hput
    · cases hput
    · next hnode =>
        rw [← Except.ok.inj hput]
        rcases node with _ | ⟨content⟩ | ⟨entries⟩
        · rfl
        · rfl
        · exact absurd rfl (hnode entries)

/-- Making directories changes no file. -/
theorem fileAt_createDirAll (h : createDirAll names path tree = .ok after) (other : List String) :
    fileAt names other (some after) = fileAt names other (some tree) := by
  have hsame : ∀ node made, makeDirectory node = .ok made → ∀ path,
      fileAt names path (some made) = fileAt names path node := by
    intro node made hmade path
    rcases node with _ | ⟨content⟩ | ⟨entries⟩
    · cases hmade
      cases path with
      | nil => rfl
      | cons name path => exact congrArg FileTree.content (lookup_none path)
    · cases hmade
    · cases hmade
      rfl
  by_cases hkeys : other.map names.key = path.map names.key
  · obtain ⟨made, hmade, hlookup⟩ := lookup_alter h
    have hfile := hsame _ made hmade []
    unfold fileAt at hfile ⊢
    rw [lookup_congr hkeys, lookup_congr hkeys, hlookup]
    exact hfile
  · exact fileAt_alter_of_ne (fun node made hmade first rest => hsame node made hmade _) h hkeys

/-- The directory that is made keeps the names in it. -/
theorem childNames_createDirAll (h : createDirAll names path tree = .ok after) :
    childNames names path (some after) = childNames names path (some tree) := by
  obtain ⟨made, hmade, hlookup⟩ := lookup_alter h
  rw [childNames, childNames, hlookup]
  unfold makeDirectory at hmade
  split at hmade
  · next hnode =>
      rw [hnode, ← Except.ok.inj hmade]
      rfl
  · next hnode => rw [hnode, ← Except.ok.inj hmade]
  · cases hmade

/-- The directory itself is there. -/
theorem createDirAll_nil (h : createDirAll names [] tree = .ok after) : after = tree := by
  rcases tree with ⟨content⟩ | ⟨entries⟩
  · cases h
  · exact (Except.ok.inj h).symm

/-- A directory that is there is not made again. -/
theorem createDirAll_of_directory {entries : List (String × FileTree)}
    (h : lookup names path (some tree) = some (.directory entries)) :
    createDirAll names path tree = .ok tree := by
  unfold createDirAll
  induction path generalizing tree with
  | nil =>
      rw [Option.some.inj h]
      rfl
  | cons name path ih =>
      rcases tree with ⟨content⟩ | ⟨children⟩
      · cases h
      · rw [lookup] at h
        cases hchild : entry names name children with
        | none =>
            rw [hchild, lookup_none] at h
            cases h
        | some child =>
            rw [hchild] at h
            have hsame := ih h
            rw [alter, opened]
            simp only [hchild, Option.isNone_some, Bool.false_and, Bool.false_eq_true, if_false,
              hsame, Except.map, setEntry_entry hchild]

/-- Making one directory changes nothing below a name but that an empty directory may appear. -/
theorem lookup_createDirAll_single {name : String} (h : createDirAll names [name] tree = .ok after)
    (first : String) (rest : List String) :
    lookup names (first :: rest) (some after) = lookup names (first :: rest) (some tree) ∨
      lookup names (first :: rest) (some tree) = none ∧
        lookup names (first :: rest) (some after) = some (.directory []) := by
  by_cases hfirst : names.key first = names.key name
  · obtain ⟨entries, child, hopened, hchild, rfl⟩ := alter_cons h
    rw [lookup, entry_setEntry hfirst, lookup_of_opened hopened, entry_congr hfirst]
    change makeDirectory (entry names name entries) = .ok child at hchild
    unfold makeDirectory at hchild
    split at hchild
    · next hentry =>
        rw [hentry, ← Except.ok.inj hchild]
        cases rest with
        | nil => exact .inr ⟨rfl, rfl⟩
        | cons second rest => exact .inl (lookup_none rest)
    · next children hentry => exact .inl (by rw [hentry, ← Except.ok.inj hchild])
    · cases hchild
  · exact .inl (lookup_alter_of_ne h hfirst rest)

theorem childNames_createDirAll_single {name : String}
    (h : createDirAll names [name] tree = .ok after) (first : String) (rest : List String) :
    childNames names (first :: rest) (some after) =
      childNames names (first :: rest) (some tree) := by
  unfold childNames
  obtain hsame | ⟨hbefore, hafter⟩ := lookup_createDirAll_single h first rest
  · rw [hsame]
  · rw [hbefore, hafter]
    rfl

theorem lookup_createDirAll (h : createDirAll names path tree = .ok after) :
    ∃ entries, lookup names path (some after) = some (.directory entries) := by
  obtain ⟨made, hmade, hlookup⟩ := lookup_alter h
  unfold makeDirectory at hmade
  split at hmade
  · exact ⟨[], by rw [hlookup, ← Except.ok.inj hmade]⟩
  · next entries hnode => exact ⟨entries, by rw [hlookup, ← Except.ok.inj hmade]⟩
  · cases hmade

/-- What is put somewhere is what was to be put there. -/
theorem eq_of_putNew {node : Option FileTree} {moved placed : FileTree}
    (h : putNew moved node = .ok placed) : placed = moved := by
  unfold putNew at h
  split at h
  · exact (Except.ok.inj h).symm
  · cases h

theorem lookup_attach {moved : FileTree} (h : attach names path tree moved = .ok after) :
    lookup names path (some after) = some moved := by
  obtain ⟨put, hput, hlookup⟩ := lookup_alter h
  rw [hlookup, eq_of_putNew hput]

theorem length_utf8 (text : String) : (utf8 text).length = text.utf8ByteSize := rfl

/-- The bytes of a text are read as the text. -/
theorem fromUTF8?_utf8 (text : String) : String.fromUTF8? (utf8 text).toByteArray = some text := by
  have hbytes : (utf8 text).toByteArray = text.toUTF8 := by
    ext1
    simp [utf8]
  rw [hbytes]
  exact dif_pos text.isValidUTF8

theorem read_eq_ok {node : Option FileTree} :
    read names path node = .ok content ↔ fileAt names path node = some content := by
  unfold read fileAt
  rcases lookup names path node with _ | ⟨bytes⟩ | ⟨entries⟩
  · simp [FileTree.content]
  · simp [FileTree.content]
  · simp [FileTree.content]

end operations

/-! ## What lies beside -/

section beside

variable {names : FileNames} {make : Bool} {f : Option FileTree → Except IoError FileTree}
  {front path : List String} {name first : String} {node : Option FileTree} {tree : FileTree}

/-- A change below a directory is one of that directory. -/
theorem alter_append (h : alter names make f (front ++ path) node = .ok tree) :
    ∃ below, alter names make f path (lookup names front node) = .ok below ∧
      lookup names front (some tree) = some below := by
  induction front generalizing node tree with
  | nil => exact ⟨tree, h, rfl⟩
  | cons top front ih =>
      obtain ⟨entries, child, hopened, hchild, rfl⟩ := alter_cons h
      rw [lookup_of_opened hopened, lookup, entry_setEntry rfl]
      exact ih hchild

/-- A change below a directory leaves what has another name there. -/
theorem lookup_alter_beside (front : List String)
    (h : alter names make f (front ++ name :: path) node = .ok tree)
    (hne : names.key first ≠ names.key name) (rest : List String) :
    lookup names (front ++ first :: rest) (some tree) =
      lookup names (front ++ first :: rest) node := by
  induction front generalizing node tree with
  | nil => exact lookup_alter_of_ne h hne rest
  | cons top front ih =>
      obtain ⟨entries, child, hopened, hchild, rfl⟩ := alter_cons h
      rw [List.cons_append, lookup, entry_setEntry rfl, lookup_of_opened hopened]
      exact ih hchild

/-- A directory that is made has nothing in it that was not there. -/
theorem lookup_makeDirectory (h : alter names make makeDirectory path node = .ok tree)
    (first : String) (rest : List String) :
    lookup names (path ++ first :: rest) (some tree) =
      lookup names (path ++ first :: rest) node := by
  obtain ⟨made, hmade, hlookup⟩ := lookup_alter h
  rw [lookup_append, lookup_append, hlookup]
  unfold makeDirectory at hmade
  split at hmade
  · next hnode =>
      rw [hnode, lookup_none, ← Except.ok.inj hmade]
      exact lookup_none rest
  · next entries hnode => rw [hnode, ← Except.ok.inj hmade]
  · cases hmade

theorem lookup_detach_of_ne (hne : names.key first ≠ names.key name) (rest : List String) :
    lookup names (first :: rest) (detach names (name :: path) node) =
      lookup names (first :: rest) node := by
  rcases node with _ | ⟨content⟩ | ⟨entries⟩
  · rfl
  · rfl
  · rw [detach]
    split
    · rw [lookup, lookup, entry_setEntry_of_ne hne]
    · have hsame : entry names first (entries.filter fun e => names.key e.1 ≠ names.key name) =
          entry names first entries := by
        rw [entry, entry, List.find?_filter]
        congr 1
        refine List.find?_congr fun e _ => ?_
        by_cases he : names.key e.1 = names.key first
        · simp [he, hne]
        · simp [he]
      rw [lookup, lookup, hsame]

/-- A removal leaves what has another name in the same directory. -/
theorem lookup_detach_beside (front : List String) (hne : names.key first ≠ names.key name)
    (rest : List String) :
    lookup names (front ++ first :: rest) (detach names (front ++ name :: path) node) =
      lookup names (front ++ first :: rest) node := by
  induction front generalizing node with
  | nil => exact lookup_detach_of_ne hne rest
  | cons top front ih =>
      rcases node with _ | ⟨content⟩ | ⟨entries⟩
      · rfl
      · rfl
      · rw [List.cons_append, List.cons_append, detach, lookup]
        split
        · next child hchild =>
            rw [lookup, entry_setEntry rfl, ← hchild]
            exact ih
        · next hchild =>
            have hrest := @ih (entry names top entries)
            rw [hchild, lookup_none] at hrest
            have hnone : entry names top
                (entries.filter fun e => names.key e.1 ≠ names.key top) = none := by
              simp [entry]
            rw [lookup, hnone, lookup_none, hrest]

end beside

/-! ## Added names -/

section added

variable {names : FileNames} {name : String} {spellings added : List String}

theorem mem_map_key_addName {key : String} :
    key ∈ (addName names spellings name).map names.key ↔
      key ∈ spellings.map names.key ∨ key = names.key name := by
  unfold addName
  split_ifs with h
  · exact ⟨.inl, fun hkey => hkey.elim id fun heq => heq ▸ h⟩
  · rw [List.map_append, List.mem_append, List.map_singleton, List.mem_singleton]

/-- A directory has no two names with one key. -/
theorem nodup_addName (h : (spellings.map names.key).Nodup) :
    ((addName names spellings name).map names.key).Nodup := by
  unfold addName
  split_ifs with hmem
  · exact h
  · rw [List.map_append, List.map_singleton, List.nodup_append]
    refine ⟨h, List.nodup_singleton _, fun a ha b hb heq => hmem ?_⟩
    rw [← List.mem_singleton.mp hb, ← heq]
    exact ha

theorem nodup_foldl_addName (added : List String) (h : (spellings.map names.key).Nodup) :
    ((added.foldl (addName names) spellings).map names.key).Nodup := by
  induction added generalizing spellings with
  | nil => exact h
  | cons name added ih => exact ih (nodup_addName h)

theorem mem_map_key_foldl_addName {key : String} :
    key ∈ (added.foldl (addName names) []).map names.key ↔ key ∈ added.map names.key := by
  induction added using List.reverseRecOn with
  | nil => rfl
  | append_singleton added last ih =>
      rw [List.foldl_append, List.foldl_cons, List.foldl_nil, mem_map_key_addName, ih,
        List.map_append, List.mem_append, List.map_singleton, List.mem_singleton]

/-- Names that are added one by one are spelled as they first were. -/
theorem mem_foldl_addName :
    name ∈ added.foldl (addName names) [] ↔
      added.find? (fun other => names.key other = names.key name) = some name := by
  induction added using List.reverseRecOn with
  | nil => simp
  | append_singleton added last ih =>
      rw [List.foldl_append, List.foldl_cons, List.foldl_nil, addName, List.find?_append]
      simp only [mem_map_key_foldl_addName]
      cases hfound : added.find? fun other => names.key other = names.key name with
      | some first =>
          rw [Option.some_or, ← hfound, ← ih]
          split_ifs with hlast
          · rfl
          · rw [List.mem_append, List.mem_singleton]
            refine or_iff_left fun heq => hlast (List.mem_map.mpr ⟨first, ?_, ?_⟩)
            · exact List.mem_of_find?_eq_some hfound
            · rw [← heq]
              simpa using List.find?_some hfound
      | none =>
          have habsent : ∀ other ∈ added, names.key other ≠ names.key name := by
            simpa using hfound
          have hnot : name ∉ added.foldl (addName names) [] := by
            rw [ih, hfound]
            exact nofun
          rw [Option.none_or]
          split_ifs with hlast
          · obtain ⟨other, hother, heq⟩ := List.mem_map.mp hlast
            have hne : names.key last ≠ names.key name := fun h =>
              habsent other hother (heq.trans h)
            simp [hnot, hne]
          · rw [List.mem_append, List.mem_singleton]
            refine (or_iff_right hnot).trans ?_
            by_cases hkey : names.key last = names.key name
            · simp [hkey, eq_comm]
            · refine iff_of_false (fun heq => hkey (heq ▸ rfl)) ?_
              simp [hkey]

end added

end FileTree

end OpenGuard.Lib
