import OpenGuard.Domain.Models
import OpenGuard.Lib.Text
import OpenGuard.Lib.Utf8

/-!
# Static capabilities

What the names of imported functions and the text of a file say about what it can do. A sensitive
capability is reported for a combination of primitives.

* `assess`: the capabilities of a set of imports and a text.
-/

namespace OpenGuard.Detection

open OpenGuard.Lib OpenGuard.Domain

/-- `u16::saturating_add` -/
def saturatingAdd16 (a b : ℕ) : ℕ := min (a + b) 65535

/-- Source: `capabilities.rs`, `CapabilityAssessment` -/
structure CapabilityAssessment where
  score : ℕ
  capabilities : List ThreatCapability
  deriving DecidableEq, Inhabited

section assess

variable (imports : List String) (strings : String)

/-- Source: `capabilities.rs`, `primitive_count` -/
def primitiveCount (names : List String) : ℕ :=
  (names.filter fun name => imports.contains name || containsStr strings name).length

/-- Source: `capabilities.rs`, `has_primitive` -/
def hasPrimitive (names : List String) : Bool :=
  names.any fun name => imports.contains name || containsStr strings name

/-- Source: `capabilities.rs`, `has_any` -/
def hasAny (names : List String) : Bool := names.any imports.contains

/-- Source: `capabilities.rs`, `contains_any` -/
def containsAny (needles : List String) : Bool := needles.any (containsStr strings)

/-- Source: `capabilities.rs`, `evidence` -/
def importEvidence (names : List String) : List String :=
  (names.filter imports.contains).map ("imports " ++ ·)

/-- A capability is reported.
Source: `capabilities.rs`, `push` -/
def CapabilityAssessment.push (assessment : CapabilityAssessment) (score : ℕ)
    (category technique : String) (confidence : UInt8) (evidence : List String) :
    CapabilityAssessment where
  score := saturatingAdd16 assessment.score score
  capabilities := assessment.capabilities ++ [⟨category, technique, confidence, evidence⟩]

/-- A capability is reported if its condition holds. -/
def CapabilityAssessment.pushIf (assessment : CapabilityAssessment) (condition : Bool) (score : ℕ)
    (category technique : String) (confidence : UInt8) (evidence : List String) :
    CapabilityAssessment :=
  if condition then assessment.push score category technique confidence evidence else assessment

/-- The names of functions that read the keyboard. -/
def keyboardNames : List String :=
  ["setwindowshookexa", "setwindowshookexw", "getasynckeystate", "getkeystate",
    "getkeyboardstate", "registerrawinputdevices"]

/-- The names of functions that read the screen. -/
def captureNames : List String :=
  ["bitblt", "getdc", "getwindowdc", "printwindow", "acquirenextframe"]

/-- The names of functions that write into another process. -/
def writeNames : List String := ["writeprocessmemory", "ntwritevirtualmemory"]

/-- The names of functions that allocate in another process. -/
def allocateNames : List String := ["virtualallocex", "ntallocatevirtualmemory"]

/-- The names of functions that run code in another process. -/
def executeNames : List String :=
  ["createremotethread", "ntcreatethreadex", "queueuserapc", "setthreadcontext"]

/-- Source: `capabilities.rs`, `assess` -/
def assess : CapabilityAssessment :=
  let keyboard := primitiveCount imports strings keyboardNames
  let capture := primitiveCount imports strings captureNames
  let crossProcessWrite := hasPrimitive imports strings writeNames
  let remoteAllocate := hasPrimitive imports strings allocateNames
  let remoteExecute := hasPrimitive imports strings executeNames
  let browserArtifact := containsAny strings
    ["\\google\\chrome\\user data", "\\microsoft\\edge\\user data",
      "\\mozilla\\firefox\\profiles", "login data", "network\\cookies", "cookies.sqlite"]
  let decryptsDpapi := hasAny imports ["cryptunprotectdata", "ncryptdecrypt"] ||
    containsAny strings ["cryptunprotectdata", "os_crypt.encrypted_key"]
  let databaseAccess := containsAny strings
    ["sqlite3_open", "sqlite3_prepare", "cookies.sqlite"] ||
      hasAny imports ["copyfilea", "copyfilew"]
  let lsassTarget := containsStr strings "lsass"
  let processDump := hasPrimitive imports strings ["minidumpwritedump"] ||
    containsAny strings ["comsvcs.dll", "procdump", "sekurlsa"]
  let inputControl := 0 < keyboard ||
    hasPrimitive imports strings ["sendinput", "mouse_event", "keybd_event"]
  let network := hasPrimitive imports strings
    ["connect", "wsaconnect", "internetconnecta", "internetconnectw", "winhttpconnect"]
  let assessment : CapabilityAssessment := ⟨0, []⟩
  let assessment := assessment.pushIf (2 ≤ keyboard) 12 "keyboard_input_capture" "T1056.001" 62
    (importEvidence imports keyboardNames)
  let assessment := assessment.pushIf (2 ≤ capture) 10 "screen_capture" "T1113" 58
    (importEvidence imports captureNames)
  let assessment := assessment.pushIf (crossProcessWrite && remoteAllocate && remoteExecute) 48
    "process_injection" "T1055" 94
    (importEvidence imports (writeNames ++ allocateNames ++ executeNames))
  let assessment := assessment.pushIf (browserArtifact && decryptsDpapi && databaseAccess) 34
    "browser_credential_access" "T1555.003" 88
    ["browser profile artifact references", "credential decryption primitive",
      "database or file-copy primitive"]
  let assessment := assessment.pushIf (lsassTarget && processDump) 45 "os_credential_dumping"
    "T1003.001" 92
    ["LSASS target reference", "process dump or credential extraction primitive"]
  let assessment := assessment.pushIf (2 ≤ capture && inputControl && network) 24
    "remote_control_stack" "T1219.002" 76
    ["screen-capture primitives", "input-monitoring or control primitives",
      "outbound network primitive"]
  -- static capability evidence alone never produces a malicious verdict
  { assessment with score := min assessment.score 70 }

end assess

/-- The names that the parser of executables finds, in lower case; none if it fails.
Source: `capabilities.rs`, `pe_imports` -/
def peImports (importNames : List UInt8 → Option (List String)) (content : List UInt8) :
    List String :=
  ((importNames content).getD []).map toAsciiLowercase

/-- Source: `capabilities.rs`, `STRING_SAMPLE_BYTES` -/
def stringSampleBytes : ℕ := 4 * 1024 * 1024

/-- Source: `capabilities.rs`, `inspect_capabilities` -/
def inspectCapabilities (importNames : List UInt8 → Option (List String))
    (content : List UInt8) : CapabilityAssessment :=
  assess (peImports importNames content)
    (toAsciiLowercase (fromUtf8Lossy (content.take stringSampleBytes)))

end OpenGuard.Detection
