import OpenGuard.Domain.Models
import OpenGuard.Lib.Table
import OpenGuard.Lib.Text

/-!
# Sysmon events

An event of the Sysmon channel as the service keeps it: its number, its time, and its named data
fields. A field that is missing reads as the empty string, and the accessors take the first of
several fields that is not empty.
-/

namespace OpenGuard.Windows

open OpenGuard.Lib OpenGuard.Domain

/-- Source: `sysmon.rs`, `SysmonEvent` -/
structure SysmonEvent where
  eventId : UInt32
  occurredAt : String
  fields : Table String String
  deriving DecidableEq

/-- Source: `sysmon.rs`, `parse_u32` -/
def parseNumber (value : String) : Option UInt32 :=
  let value := trim value
  match (stripPrefix value "0x").or (stripPrefix value "0X") with
  | some hex => u32FromStrRadix hex 16
  | none => parseU32 value

/-- Source: `sysmon.rs`, `append_detail` -/
def appendDetail (parts : List String) (label value : String) : List String :=
  if value != "" && !parts.any (fun part => endsWith part value) then
    parts ++ [label ++ "=" ++ value]
  else parts

namespace SysmonEvent

variable (event : SysmonEvent)

/-- Source: `sysmon.rs`, `SysmonEvent::field` -/
def field (name : String) : String := (event.fields.lookup name).getD ""

/-- The first of several fields that is not empty. -/
def firstField (names : List String) : String :=
  ((names.map event.field).find? (· != "")).getD ""

/-- Source: `sysmon.rs`, `SysmonEvent::process_id` -/
def processId : Option UInt32 :=
  ["ProcessId", "SourceProcessId", "TargetProcessId"].findSome? fun name =>
    parseNumber (event.field name)

/-- Source: `sysmon.rs`, `SysmonEvent::correlation_id` -/
def correlationId : String :=
  match (["ProcessGuid", "SourceProcessGuid", "TargetProcessGuid"].map event.field).find?
      (· != "") with
  | some value => "sysmon-" ++ value
  | none => "sysmon-pid-" ++ toString (event.processId.getD 0).toNat

/-- Source: `sysmon.rs`, `SysmonEvent::image` -/
def image : String := event.firstField ["Image", "SourceImage", "TargetImage"]

/-- Source: `sysmon.rs`, `SysmonEvent::target_path` -/
def targetPath : String :=
  event.firstField ["TargetFilename", "TargetObject", "TargetImage", "PipeName"]

/-- Source: `sysmon.rs`, `SysmonEvent::remote_address` -/
def remoteAddress : String :=
  let destination := event.field "DestinationIp"
  if destination = "" then event.field "QueryName" else destination

/-- Source: `sysmon.rs`, `SysmonEvent::detail` -/
def detail : String :=
  let parts := appendDetail [] "image" event.image
  let parts := appendDetail parts "command" (event.field "CommandLine")
  let parts := appendDetail parts "target" event.targetPath
  let parts := appendDetail parts "destination" (event.field "DestinationIp")
  let parts := appendDetail parts "port" (event.field "DestinationPort")
  let parts := appendDetail parts "dns" (event.field "QueryName")
  let parts := appendDetail parts "access" (event.field "GrantedAccess")
  let parts := appendDetail parts "pipe" (event.field "PipeName")
  if parts = [] then "Sysmon event " ++ toString event.eventId.toNat else joinWith "; " parts

end SysmonEvent

end OpenGuard.Windows
