import OpenGuard.Lib.Text
import OpenGuard.Service.Response
import OpenGuard.Storage.Policy

/-!
# Policy requests

A user excludes paths and allows digests. A path that is to be excluded is resolved in the name of
the client; the key under which it is stored, and by which it is removed, is made by the service.

* `normalizedPathKey`: the key of a path.
* `addExclusionRequest`, `removeExclusionRequest`, `allowHashRequest`, `removeAllowedHashRequest`:
  the requests.
-/

namespace OpenGuard.Service

open OpenGuard.Lib OpenGuard.Domain OpenGuard.Storage

/-- Source: `main.rs`, `normalized_path_key` -/
def normalizedPathKey (canonicalize : String → Option String) (path : String) : String :=
  let display := replaceChar ((canonicalize path).getD path) '/' '\\'
  let display :=
    match stripPrefix display "\\\\?\\UNC\\" with
    | some unc => "\\\\" ++ unc
    | none => (stripPrefix display "\\\\?\\").getD display
  toAsciiLowercase (trimEndMatches '\\' display)

/-- What the environment chooses for a policy request: the path as the client resolves it, or the
text of the error; the canonical paths of the files that exist; the clock; and the outcome of the
call to the database. -/
structure PolicyChoice where
  resolved : String → Except String String
  canonicalize : String → Option String
  now : Clock
  fault : Fault

/-- Source: `main.rs`, `ServiceState::add_exclusion` -/
def addExclusionRequest (clientSid path : String) (recursive : Bool) (choice : PolicyChoice)
    (rows : Exclusions) : Except ApiError Unit × Exclusions :=
  match choice.resolved path with
  | .error error =>
      (.error ⟨.notFound, "Resolve exclusion path as the requesting user: " ++ error, false⟩, rows)
  | .ok resolved =>
      let record : ExclusionRecord := ⟨resolved, recursive, choice.now.unixTimestamp⟩
      match addExclusion choice.fault clientSid (normalizedPathKey choice.canonicalize resolved)
          record rows with
      | (.error error, rows) => (.error (storageApiError "Add exclusion" error), rows)
      | (.ok (), rows) => (.ok (), rows)

/-- Source: `main.rs`, `ServiceState::remove_exclusion` -/
def removeExclusionRequest (clientSid path : String) (choice : PolicyChoice) (rows : Exclusions) :
    Except ApiError Unit × Exclusions :=
  match removeExclusion choice.fault clientSid (normalizedPathKey choice.canonicalize path)
      rows with
  | (.error error, rows) => (.error (storageApiError "Remove exclusion" error), rows)
  | (.ok false, rows) => (.error ⟨.notFound, "The exclusion was not found", false⟩, rows)
  | (.ok true, rows) => (.ok (), rows)

/-- `u8::is_ascii_hexdigit` -/
def isHexDigit (c : Char) : Bool :=
  ('0' ≤ c && c ≤ '9') || ('a' ≤ c && c ≤ 'f') || ('A' ≤ c && c ≤ 'F')

/-- What may be allowed.
Source: `main.rs`, `ServiceState::allow_hash` -/
def checkAllowHash (sha256 label : String) : Except ApiError (String × String) :=
  let sha256 := toAsciiLowercase (trim sha256)
  if sha256.utf8ByteSize ≠ 64 ∨ !sha256.toList.all isHexDigit then
    .error ⟨.invalidRequest, "Allowed hashes must be an exact 64-character SHA-256 digest", false⟩
  else if 200 < (trim label).utf8ByteSize then
    .error ⟨.invalidRequest, "Allow-list labels cannot exceed 200 characters", false⟩
  else .ok (sha256, trim label)

/-- Source: `main.rs`, `ServiceState::allow_hash` -/
def allowHashRequest (clientSid sha256 label : String) (choice : PolicyChoice)
    (rows : HashAllowlist) : Except ApiError Unit × HashAllowlist :=
  match checkAllowHash sha256 label with
  | .error error => (.error error, rows)
  | .ok (sha256, label) =>
      match allowHash choice.fault clientSid ⟨sha256, label, choice.now.unixTimestamp⟩ rows with
      | (.error error, rows) => (.error (storageApiError "Allow hash" error), rows)
      | (.ok (), rows) => (.ok (), rows)

/-- Source: `main.rs`, `ServiceState::remove_allowed_hash` -/
def removeAllowedHashRequest (clientSid sha256 : String) (choice : PolicyChoice)
    (rows : HashAllowlist) : Except ApiError Unit × HashAllowlist :=
  match removeAllowedHash choice.fault clientSid (toAsciiLowercase (trim sha256)) rows with
  | (.error error, rows) => (.error (storageApiError "Remove allowed hash" error), rows)
  | (.ok false, rows) => (.error ⟨.notFound, "The allowed hash was not found", false⟩, rows)
  | (.ok true, rows) => (.ok (), rows)

end OpenGuard.Service
