import OpenGuard.Lib.Table

/-!
# Calls on the database

Every operation of the storage layer opens a connection and runs one statement or one
transaction, so it either commits or fails and leaves the rows as they were. An operation is
modelled by what it does when the database works; `call` adds the other case, an error chosen by
the environment.

The `metadata` table is here too, since every part of the service keeps a key in it.
-/

namespace OpenGuard.Storage

open OpenGuard.Lib

/-- Source: `storage/lib.rs`, `StorageError` -/
inductive StorageError where
  | database (message : String)
  | io (message : String)
  | json (message : String)
  | invalidSeverity (text : String)
  deriving DecidableEq, Inhabited

/-- The text `Display` gives an error. -/
def StorageError.display : StorageError → String
  | .database message => "database error: " ++ message
  | .io message => "filesystem error: " ++ message
  | .json message => "stored JSON error: " ++ message
  | .invalidSeverity text => "database contains invalid severity '" ++ text ++ "'"

/-- The error with which the environment lets a call fail, if it does. -/
abbrev Fault := Option StorageError

/-- One call: it fails and changes nothing, or does what the operation does. -/
def call {σ α : Type*} (fault : Fault) (operation : σ → Except StorageError α × σ) (store : σ) :
    Except StorageError α × σ :=
  match fault with
  | some error => (.error error, store)
  | none => operation store

section call

variable {σ α : Type*} (operation : σ → Except StorageError α × σ) (store : σ)

@[simp] theorem call_some (error : StorageError) :
    call (some error) operation store = (.error error, store) := rfl

@[simp] theorem call_none : call none operation store = operation store := rfl

end call

/-- The rows of the table `metadata`. -/
abbrev Metadata := Table String String

/-- Source: `storage/lib.rs`, `Database::get_metadata` -/
def getMetadata (fault : Fault) (key : String) (metadata : Metadata) :
    Except StorageError (Option String) :=
  (call fault (fun rows => (.ok (rows.lookup key), rows)) metadata).1

/-- Source: `storage/lib.rs`, `Database::set_metadata` -/
def setMetadata (fault : Fault) (key value : String) (metadata : Metadata) :
    Except StorageError Unit × Metadata :=
  call fault (fun rows => (.ok (), rows.insert key value)) metadata

end OpenGuard.Storage
