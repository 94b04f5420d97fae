import OpenGuard.Lib.Program
import OpenGuard.Updates.Staging

/-!
# The installation step by step

The installation as a program that makes one call of the file system or of the fetcher after
another. The staging directory lies among the versions. The environment lets a call work or fail; a
call that fails, or during which the service is stopped, may leave a part of its work, which for a
file that is written or a directory that is removed is taken to be anything at all. The name of the
staging directory is a parameter. A renaming has no part that could be left.

* `installSteps`: the program; `answer` says what its calls do.
* `Complete`: a directory that was staged from a whole manifest and passed every check.
-/

namespace OpenGuard.Updates

open OpenGuard.Lib OpenGuard.Lib.FileTree

/-- The calls of the installation. -/
inductive DiskOp where
  | createDirAll (path : List String)
  | pathExists (path : List String)
  | createDir (path : List String)
  | fetch (url : String) (limit : ℕ)
  | inspect (path : List String)
  | write (path : List String) (data : List UInt8)
  | rename (source target : List String)
  | removeDirAll (path : List String)

/-- What a call returns when it succeeds. A check reads whatever it needs of a directory. -/
abbrev DiskOp.Value : DiskOp → Type
  | pathExists _ => Bool
  | fetch _ _ => List UInt8
  | inspect _ => Option FileTree
  | _ => Unit

/-- The answers to a call. -/
abbrev DiskOp.Answer (op : DiskOp) : Type := Except UpdateError op.Value

/-- The disk of the updater, which may have no root directory yet, and what was fetched so far. -/
structure Disk where
  root : Option FileTree
  fetched : List (List UInt8)

/-- What the environment does in one call: the call works; the fetcher delivers; or the call fails,
after it has made some of the directories, or has left something at its path. -/
inductive DiskChoice where
  | works
  | delivers (data : List UInt8)
  | fails (error : UpdateError)
  | stops (error : UpdateError) (made : ℕ)
  | leaves (error : UpdateError) (left : Option FileTree)

/-- The error of a call that fails. -/
def DiskChoice.error? : DiskChoice → Option UpdateError
  | works => none
  | delivers _ => none
  | fails error => some error
  | stops error _ => some error
  | leaves error _ => some error

section calls

variable (names : FileNames)

/-- An operation of the file system. -/
def attempt (operation : Option FileTree → Except IoError (Option FileTree)) (disk : Disk) :
    Except UpdateError Unit × Disk :=
  match operation disk.root with
  | .ok root => (.ok (), { disk with root })
  | .error error => (.error (.io error), disk)

/-- The root and the first directories of a path are made. -/
def madeBefore (path : List String) (choice : DiskChoice) (root : Option FileTree) :
    Option FileTree :=
  match choice with
  | .stops _ (made + 1) =>
      match alter names true makeDirectory (path.take made) root with
      | .ok tree => some tree
      | .error _ => root
  | _ => root

/-- Something is at the path, or nothing. -/
def leftBehind (path : List String) (choice : DiskChoice) (root : Option FileTree) :
    Option FileTree :=
  match choice with
  | .leaves _ none => detach names path root
  | .leaves _ (some left) =>
      match alter names false (fun _ => .ok left) path root with
      | .ok tree => some tree
      | .error _ => root
  | _ => root

/-- What the calls do. -/
def answer : Program.Handler DiskOp DiskOp.Answer Disk DiskChoice
  | .createDirAll path, choice, disk =>
      match choice.error? with
      | none => attempt (fun root => (alter names true makeDirectory path root).map some) disk
      | some error => (.error error, { disk with root := madeBefore names path choice disk.root })
  | .pathExists path, choice, disk =>
      -- what cannot be looked at does not exist
      (.ok (choice.error?.isNone && FileTree.pathExists names path disk.root), disk)
  | .createDir path, choice, disk =>
      match choice.error? with
      | none =>
          attempt (fun root => (alter names false (putNew (.directory [])) path root).map some) disk
      | some error => (.error error, disk)
  | .fetch _ _, .delivers data, disk => (.ok data, { disk with fetched := disk.fetched ++ [data] })
  | .fetch _ _, choice, disk => (.error (choice.error?.getD (.network "")), disk)
  | .inspect path, choice, disk =>
      match choice.error? with
      | none => (.ok (lookup names path disk.root), disk)
      | some error => (.error error, disk)
  | .write path data, choice, disk =>
      match choice.error? with
      | none => attempt (fun root => (alter names false (putFile data) path root).map some) disk
      | some error => (.error error, { disk with root := leftBehind names path choice disk.root })
  | .rename source target, choice, disk =>
      match choice.error? with
      | none => attempt (FileTree.rename names source target) disk
      | some error => (.error error, disk)
  | .removeDirAll path, choice, disk =>
      match choice.error? with
      | none => (.ok (), { disk with root := detach names path disk.root })
      | some error => (.error error, { disk with root := leftBehind names path choice disk.root })

end calls

/-! ## The program -/

/-- A program that may fail with an error of the updater. -/
abbrev DiskProgram := ExceptT UpdateError (Program DiskOp DiskOp.Answer)

section program

variable (crates : Crates) (names : FileNames)

/-- One call whose error ends the program. -/
def step (op : DiskOp) : DiskProgram op.Value := ExceptT.mk (Program.perform op)

/-- One turn of the loop over the files.
Source: `updates/lib.rs`, `SecurityContentUpdater::install_with_fetcher` -/
def stageFile (staging : List String) (item : ContentFile) : DiskProgram Unit := do
  let data ← step (.fetch item.url (fetchLimit item))
  Program.ofExcept (validateContentBytes crates item data)
  let target ← Program.ofExcept (contentPath item.path)
  step (.createDirAll (staging ++ (pathNames target).dropLast))
  Program.ofExcept (ensure (opensFile target) (.io .invalidName))
  step (.write (staging ++ pathNames target) data)

/-- The loop over the files.
Source: `updates/lib.rs`, `SecurityContentUpdater::install_with_fetcher` -/
def stageFiles (staging : List String) : List ContentFile → DiskProgram Unit
  | [] => pure ()
  | item :: items => do
      stageFile crates staging item
      stageFiles staging items

/-- The closure that fills the staging directory and renames it.
Source: `updates/lib.rs`, `SecurityContentUpdater::install_with_fetcher` -/
def stageVersion (manifestBytes : List UInt8) (manifest : ContentManifest)
    (staging : List String) : DiskProgram String := do
  stageFiles crates staging manifest.files
  let directory ← step (.inspect staging)
  Program.ofExcept (validateContentDirectory crates names directory)
  step (.write (staging ++ ["manifest.json"]) manifestBytes)
  step (.rename staging (versionPath manifest.version))
  return manifest.version

/-- The name of the staging directory.
Source: `updates/lib.rs`, `SecurityContentUpdater::install_with_fetcher` -/
def stagingName (version uuid : String) : String := ".staging-" ++ version ++ "-" ++ uuid

/-- Source: `updates/lib.rs`, `SecurityContentUpdater::install_with_fetcher` -/
def installSteps (manifestBytes : List UInt8) (uuid : String) : DiskProgram String := do
  let manifest ← Program.ofExcept (verifyManifest crates manifestBytes)
  step (.createDirAll ["versions"])
  if ← step (.pathExists (versionPath manifest.version)) then
    let directory ← step (.inspect (versionPath manifest.version))
    Program.ofExcept (validateInstalled crates names directory manifest)
    return manifest.version
  else
    let staging := ["versions", stagingName manifest.version uuid]
    step (.createDir staging)
    match ← ExceptT.lift (stageVersion crates names manifestBytes manifest staging).run with
    | .ok version => return version
    | .error error =>
        -- the result of the removal is not looked at
        let _ ← ExceptT.lift (Program.perform (.removeDirAll staging))
        throw error

end program

end OpenGuard.Updates
