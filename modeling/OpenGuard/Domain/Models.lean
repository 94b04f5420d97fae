import Mathlib.Order.Basic

/-!
# The domain model

The records of the crate `openguard-domain` that the detection, protection and response logic
exchanges, with the fields some modelled function reads, writes or returns. Display-only
numbers (CPU load, transfer rates, byte counters) are left out.
-/

namespace OpenGuard.Domain

/-- Authenticode trust of an executable.
Source: `models.rs`, `SignatureStatus` -/
inductive SignatureStatus where
  | trusted
  | untrusted
  | unknown
  | notApplicable
  deriving DecidableEq, Inhabited

/-- The text `Display` gives a signature status. -/
def SignatureStatus.display : SignatureStatus → String
  | trusted => "trusted"
  | untrusted => "untrusted"
  | unknown => "unknown"
  | notApplicable => "not_applicable"

/-- Severity of an observation, from least to greatest.
Source: `models.rs`, `Severity` -/
inductive Severity where
  | info
  | low
  | medium
  | high
  | critical
  deriving DecidableEq, Inhabited

namespace Severity

/-- The position in the derived order of the enumeration. -/
def rank : Severity → ℕ
  | info => 0
  | low => 1
  | medium => 2
  | high => 3
  | critical => 4

instance : LE Severity := ⟨fun s t => s.rank ≤ t.rank⟩

instance (s t : Severity) : Decidable (s ≤ t) := inferInstanceAs (Decidable (s.rank ≤ t.rank))

/-- Source: `models.rs`, `Severity::from_score` -/
def fromScore (score : UInt8) : Severity :=
  if 90 ≤ score then critical
  else if 65 ≤ score then high
  else if 35 ≤ score then medium
  else if 15 ≤ score then low
  else info

/-- The text `Display` gives a severity. -/
def display : Severity → String
  | info => "info"
  | low => "low"
  | medium => "medium"
  | high => "high"
  | critical => "critical"

/-- Source: `models.rs`, `Severity::parse` -/
def parse (value : String) : Option Severity :=
  if value = "info" then some info
  else if value = "low" then some low
  else if value = "medium" then some medium
  else if value = "high" then some high
  else if value = "critical" then some critical
  else none

/-- What is written is read back. -/
@[simp] theorem parse_display (severity : Severity) : parse severity.display = some severity := by
  cases severity <;> rfl

end Severity

/-- Source: `models.rs`, `RiskAssessment` -/
@[ext] structure RiskAssessment where
  score : UInt8
  severity : Severity
  reasons : List String
  deriving DecidableEq, Inhabited

/-- Source: `models.rs`, `ProcessRecord` -/
structure ProcessRecord where
  pid : UInt32
  parentPid : UInt32
  name : String
  path : String
  signature : SignatureStatus
  identity : String
  isNew : Bool
  risk : RiskAssessment
  deriving DecidableEq, Inhabited

/-- Source: `models.rs`, `NetworkEndpoint` -/
structure NetworkEndpoint where
  protocol : String
  localAddress : String
  localPort : UInt16
  remoteAddress : String
  remotePort : UInt16
  state : String
  pid : UInt32
  processName : String
  processPath : String
  remoteHostname : String
  reputation : String
  deriving DecidableEq, Inhabited

/-- Source: `models.rs`, `CoverageState` -/
inductive CoverageState where
  | active
  | limited
  | unavailable
  | unknown
  deriving DecidableEq, Inhabited

/-- Source: `models.rs`, `CoverageNote` -/
structure CoverageNote where
  source : String
  state : CoverageState
  detail : String
  deriving DecidableEq, Inhabited

/-- Source: `models.rs`, `SystemSnapshot` -/
structure SystemSnapshot where
  processes : List ProcessRecord
  endpoints : List NetworkEndpoint
  capturedAt : String
  coverage : List CoverageNote
  deriving DecidableEq, Inhabited

/-- Source: `models.rs`, `SecurityEvent` -/
structure SecurityEvent where
  eventType : String
  severity : Severity
  title : String
  detail : String
  processId : Option UInt32
  path : String
  createdAt : String
  resolved : Bool
  deriving DecidableEq, Inhabited

/-- Source: `models.rs`, `TimelineEvent` -/
structure TimelineEvent where
  category : String
  action : String
  severity : Severity
  title : String
  detail : String
  processId : Option UInt32
  path : String
  remoteAddress : String
  correlationId : String
  occurredAt : String
  deriving DecidableEq, Inhabited

/-- A page of the timeline; every event has its id.
Source: `models.rs`, `TimelinePage` -/
structure TimelinePage where
  events : List (ℕ × TimelineEvent)
  nextBeforeId : Option ℕ
  deriving DecidableEq, Inhabited

/-- Source: `models.rs`, `PersistenceItem` -/
structure PersistenceItem where
  id : String
  category : String
  name : String
  command : String
  location : String
  state : String
  risk : Severity
  evidence : List String
  detectedAt : String
  responseCapability : String
  deriving DecidableEq, Inhabited

/-- Source: `models.rs`, `ScanVerdict` -/
inductive ScanVerdict where
  | clean
  | lowRisk
  | suspicious
  | malicious
  | skipped
  | error
  | cancelled
  deriving DecidableEq, Inhabited

/-- The text `Display` gives a verdict. -/
def ScanVerdict.display : ScanVerdict → String
  | clean => "clean"
  | lowRisk => "low_risk"
  | suspicious => "suspicious"
  | malicious => "malicious"
  | skipped => "skipped"
  | error => "error"
  | cancelled => "cancelled"

/-- Source: `models.rs`, `ScanProfile` -/
inductive ScanProfile where
  | quick
  | full
  | startup
  | downloads
  deriving DecidableEq, Inhabited

/-- Source: `models.rs`, `ThreatCapability` -/
structure ThreatCapability where
  category : String
  mitreTechnique : String
  confidence : UInt8
  evidence : List String
  deriving DecidableEq, Inhabited

/-- Source: `models.rs`, `ScanFinding` -/
structure ScanFinding where
  path : String
  verdict : ScanVerdict
  score : UInt8
  reasons : List String
  sha256 : String
  sizeBytes : UInt64
  signature : SignatureStatus
  amsiResult : String
  yaraStatus : String
  yaraMatches : List String
  capabilities : List ThreatCapability
  scannedAt : String
  deriving DecidableEq, Inhabited

/-- Source: `models.rs`, `ScanJobState` -/
inductive ScanJobState where
  | queued
  | running
  | completed
  | cancelled
  | failed
  deriving DecidableEq, Inhabited

/-- Source: `models.rs`, `ScanJobStatus` -/
structure ScanJobStatus where
  scanId : String
  target : String
  state : ScanJobState
  finding : Option ScanFinding
  findings : List ScanFinding
  filesScanned : UInt64
  totalFiles : UInt64
  currentPath : String
  error : Option String
  deriving DecidableEq, Inhabited

/-- Source: `models.rs`, `ContentStatus` -/
structure ContentStatus where
  activeVersion : String
  previousVersion : Option String
  source : String
  manifestUrl : String
  deriving DecidableEq, Inhabited

/-- Source: `models.rs`, `ExclusionRecord` -/
structure ExclusionRecord where
  path : String
  recursive : Bool
  createdAt : String
  deriving DecidableEq, Inhabited

/-- Source: `models.rs`, `AllowedHashRecord` -/
structure AllowedHashRecord where
  sha256 : String
  label : String
  createdAt : String
  deriving DecidableEq, Inhabited

/-- Source: `models.rs`, `QuarantineRecord` -/
structure QuarantineRecord where
  id : String
  originalPath : String
  sha256 : String
  reason : String
  createdAt : String
  restoredAt : Option String
  restoredPath : Option String
  deriving DecidableEq, Inhabited

/-- Source: `protocol.rs`, `ErrorCode` -/
inductive ErrorCode where
  | invalidRequest
  | unsupportedProtocol
  | unauthorized
  | forbidden
  | notFound
  | conflict
  | busy
  | limitedCoverage
  | internal
  deriving DecidableEq, Inhabited

/-- Source: `protocol.rs`, `ApiError` -/
structure ApiError where
  code : ErrorCode
  message : String
  retryable : Bool
  deriving DecidableEq, Inhabited

end OpenGuard.Domain
