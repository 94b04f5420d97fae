import Mathlib.Init

/-!
# Errors of the Windows layer
-/

namespace OpenGuard.Windows

/-- Source: `windows/lib.rs`, `WindowsError` -/
inductive WindowsError where
  | api (message : String)
  | status (api : String) (status : UInt32)
  | invalidTable
  deriving DecidableEq, Inhabited

/-- The text `Display` gives an error. -/
def WindowsError.display : WindowsError → String
  | .api message => "Windows API failed: " ++ message
  | .status call code => call ++ " failed with Win32 status " ++ toString code.toNat
  | .invalidTable => "Windows returned an invalid table size"

end OpenGuard.Windows
