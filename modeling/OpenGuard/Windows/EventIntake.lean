import OpenGuard.Lib.Mailbox
import OpenGuard.Windows.EventXml
import OpenGuard.Windows.Sysmon

/-!
# Events of the Windows event log

Windows calls the monitors back for every event of a channel they subscribe to, on threads of its own:
the Security and Defender channels of one monitor, and the Sysmon channel of another. A callback counts
the event, renders and parses it, and offers it to the queue of the monitor. The protection loop drains
the queue.

* `events_accounted`: over every interleaving, each event that a channel delivered is counted as
  unparsed or as dropped, or is in one place of the queue or of a drained batch, in order.
* `burst_survives`: as long as no more than the capacity is on its way, no event is dropped.
-/

namespace OpenGuard.Windows

open OpenGuard.Lib OpenGuard.Domain

/-! ## Events -/

/-- Source: `eventlog.rs`, `EVENT_QUEUE_CAPACITY`, and `sysmon.rs`, `SYSMON_QUEUE_CAPACITY` -/
def eventQueueCapacity : ℕ := 2048

/-- Source: `eventlog.rs`, `WindowsEvent` -/
structure WindowsEvent where
  source : String
  eventId : UInt32
  occurredAt : String
  fields : Table String String
  deriving DecidableEq

namespace WindowsEvent

variable (event : WindowsEvent)

/-- Source: `eventlog.rs`, `WindowsEvent::field` -/
def field (name : String) : String := (event.fields.lookup name).getD ""

/-- Source: `eventlog.rs`, `WindowsEvent::process_id` -/
def processId : Option UInt32 :=
  ["NewProcessId", "ProcessId", "ProcessID"].findSome? fun name => parseNumber (event.field name)

/-- Source: `eventlog.rs`, `WindowsEvent::path` -/
def path : String :=
  ((["NewProcessName", "Path", "Process Name", "ProcessName"].map event.field).find?
    (· != "")).getD ""

/-- Source: `eventlog.rs`, `WindowsEvent::action` -/
def action : String :=
  match event.eventId with
  | 4688 => "process_create_audit"
  | 4689 => "process_terminate_audit"
  | 1116 => "defender_threat_detected"
  | 1117 => "defender_threat_action"
  | 5007 => "defender_configuration_changed"
  | _ => "windows_event"

/-- Source: `eventlog.rs`, `WindowsEvent::severity` -/
def severity : Severity :=
  match event.eventId with
  | 1116 => .high
  | 1117 | 5007 => .medium
  | _ => .info

/-- Source: `eventlog.rs`, `WindowsEvent::title` -/
def title : String :=
  match event.eventId with
  | 4688 => "Windows audited process creation"
  | 4689 => "Windows audited process termination"
  | 1116 => "Microsoft Defender detected a threat"
  | 1117 => "Microsoft Defender took threat action"
  | 5007 => "Microsoft Defender configuration changed"
  | _ => "Windows event " ++ toString event.eventId.toNat

/-- Source: `eventlog.rs`, `WindowsEvent::detail` -/
def detail : String :=
  let parts :=
    [("process", "NewProcessName"), ("command", "CommandLine"), ("parent", "ParentProcessName"),
      ("threat", "Threat Name"), ("path", "Path"), ("action", "Action Name"), ("old", "Old Value"),
      ("new", "New Value")].filterMap fun entry =>
        let value := event.field entry.2
        if value ≠ "" ∧ value.utf8ByteSize ≤ 32 * 1024 then some (entry.1 ++ "=" ++ value) else none
  if parts = [] then event.source ++ " event " ++ toString event.eventId.toNat
  else joinWith "; " parts

/-- Source: `eventlog.rs`, `WindowsEvent::correlation_id` -/
def correlationId : String :=
  "windows-event-" ++
    replaceChar (replaceChar (replaceChar event.source '\\' '-') '/' '-') ' ' '-' ++ "-" ++
    toString event.eventId.toNat ++ "-" ++ toString (event.processId.getD 0).toNat ++ "-" ++
    event.occurredAt

/-- Source: `eventlog.rs`, `subscription_callback` -/
def ofParsed (source : String) (parsed : SysmonEvent) : WindowsEvent :=
  ⟨source, parsed.eventId, parsed.occurredAt, parsed.fields⟩

end WindowsEvent

/-! ## The monitors -/

/-- Why Windows calls back.
Source: `eventlog.rs` and `sysmon.rs`, `subscription_callback` -/
inductive SubscriptionAction where
  | error
  | deliver
  | other

/-- A monitor with its channels: what the callbacks and the queue have, the errors of the
subscriptions, how many events the drain that is going on may still take and which it has, and the
batches of the drains before.
Source: `eventlog.rs`, `NativeEventLogMonitor`, and `sysmon.rs`, `SysmonMonitor` -/
structure EventMonitor (ι ε : Type) where
  mailbox : Mailbox ι ε
  subscriptionErrors : ι → ℕ
  draining : Option (ℕ × List ε)
  drained : List (List ε)

/-- Windows calls back, at some time and with the text that it renders; a callback makes its next
access; or the service drains, and takes the next event. -/
inductive IntakeAction (ι : Type) where
  | callback (channel : ι) (action : SubscriptionAction) (now : String)
      (rendered : Except String String)
  | proceed (place : ℕ)
  | call (limit : ℕ)
  | receive

/-- What the callback of the event log makes of an event.
Source: `eventlog.rs`, `subscription_callback` -/
def windowsEvent (reader : XmlReader) (now source : String) (rendered : Except String String) :
    Option WindowsEvent :=
  ((rendered.bind (parseEventXml reader now)).map (WindowsEvent.ofParsed source)).toOption

/-- What the callback of Sysmon makes of an event. There is one channel.
Source: `sysmon.rs`, `subscription_callback` -/
def sysmonEvent (reader : XmlReader) (now : String) (_ : Unit) (rendered : Except String String) :
    Option SysmonEvent :=
  (rendered.bind (parseEventXml reader now)).toOption

namespace EventMonitor

variable {ι ε : Type}

/-- Before any event. -/
def start : EventMonitor ι ε := ⟨.empty, fun _ => 0, none, []⟩

/-- The bound of a drain.
Source: `eventlog.rs`, `NativeEventLogMonitor::drain`, and `sysmon.rs`, `SysmonMonitor::drain` -/
def drainLimit (limit : ℕ) : ℕ := max 1 (min limit eventQueueCapacity)

variable [DecidableEq ι] (parse : String → ι → Except String String → Option ε)

/-- One access. `parse` is what the callbacks make of an event. The channel counts in the source wrap around at 2^64.
Source: `eventlog.rs` and `sysmon.rs`, `subscription_callback` and `drain` -/
def step (s : EventMonitor ι ε) : IntakeAction ι → Option (EventMonitor ι ε)
  | .callback channel .error _ _ =>
      some { s with subscriptionErrors := Mailbox.increment s.subscriptionErrors channel }
  | .callback channel .deliver now rendered =>
      (s.mailbox.step eventQueueCapacity (.arrive channel (parse now channel rendered))).map
        fun mailbox => { s with mailbox }
  | .callback _ .other _ _ => some s
  | .proceed place =>
      (s.mailbox.step eventQueueCapacity (.proceed place)).map fun mailbox => { s with mailbox }
  | .call limit =>
      match s.draining with
      | none => some { s with draining := some (drainLimit limit, []) }
      | some _ => none
  | .receive =>
      match s.draining, s.mailbox.queue with
      | some (left + 1, batch), message :: _ =>
          (s.mailbox.step eventQueueCapacity .take).map fun mailbox =>
            { s with mailbox, draining := some (left, batch ++ [message]) }
      | some (_, batch), _ => some { s with draining := none, drained := s.drained ++ [batch] }
      | none, _ => none

/-- The events that the drain that is going on has. -/
def batch (s : EventMonitor ι ε) : List ε := (s.draining.map Prod.snd).getD []

/-- Every event that was delivered is in one place. -/
structure Accounted (s : EventMonitor ι ε) : Prop where
  counted : Mailbox.Accounts eventQueueCapacity s.mailbox
  taken : s.mailbox.taken = s.drained.flatten ++ s.batch
  batches : ∀ events ∈ s.drained, events.length ≤ eventQueueCapacity
  draining : ∀ left events, s.draining = some (left, events) →
    left + events.length ≤ eventQueueCapacity

section accounted

variable {parse : String → ι → Except String String → Option ε} {s t : EventMonitor ι ε}
  {a : IntakeAction ι} {as : List (IntakeAction ι)}

theorem drainLimit_le (limit : ℕ) : drainLimit limit ≤ eventQueueCapacity :=
  max_le (by decide) (min_le_right _ _)

theorem Accounted.step (h : Accounted s) (hstep : s.step parse a = some t) : Accounted t := by
  obtain ⟨mailbox, subscriptionErrors, current, drained⟩ := s
  obtain ⟨hcounted, htaken, hbatches, hdraining⟩ := h
  cases a with
  | callback channel action now rendered =>
      cases action with
      | deliver =>
          simp only [EventMonitor.step] at hstep
          obtain ⟨after, hafter, rfl⟩ := Option.map_eq_some_iff.mp hstep
          obtain rfl := Option.some.inj hafter
          exact ⟨hcounted.step hafter, htaken, hbatches, hdraining⟩
      | _ =>
          obtain rfl := Option.some.inj hstep
          exact ⟨hcounted, htaken, hbatches, hdraining⟩
  | proceed place =>
      obtain ⟨after, hafter, rfl⟩ := Option.map_eq_some_iff.mp hstep
      refine ⟨hcounted.step hafter, ?_, hbatches, hdraining⟩
      exact (Mailbox.taken_proceed hafter).trans htaken
  | call limit =>
      cases current with
      | some current => cases hstep
      | none =>
          obtain rfl := Option.some.inj hstep
          refine ⟨hcounted, htaken, hbatches, ?_⟩
          rintro left events h
          cases h
          exact drainLimit_le limit
  | receive =>
      simp only [EventMonitor.step] at hstep
      split at hstep
      · rename_i left batch message queue hqueue
        obtain ⟨after, hafter, rfl⟩ := Option.map_eq_some_iff.mp hstep
        refine ⟨hcounted.step hafter, ?_, hbatches, ?_⟩
        · have hmore : after.taken = mailbox.taken ++ [message] := by
            simp only [Mailbox.step, hqueue] at hafter
            exact (congrArg Mailbox.taken (Option.some.inj hafter)).symm
          rw [hmore, htaken]
          simp [EventMonitor.batch]
        · rintro other events h
          cases h
          have hle := hdraining _ _ rfl
          rw [List.length_append]
          simpa [Nat.add_assoc, Nat.add_comm 1] using hle
      · rename_i left batch _
        obtain rfl := Option.some.inj hstep
        refine ⟨hcounted, ?_, ?_, by rintro _ _ ⟨⟩⟩
        · rw [htaken]
          simp [EventMonitor.batch]
        · intro events hmem
          rcases List.mem_append.mp hmem with hmem | hmem
          · exact hbatches events hmem
          · rw [List.mem_singleton.mp hmem]
            exact (Nat.le_add_left _ _).trans (hdraining _ _ rfl)
      · cases hstep

theorem accounted_start : Accounted (start : EventMonitor ι ε) :=
  ⟨Mailbox.accounts_empty, rfl, by simp [start], by simp [start]⟩

/-- **A burst within the capacity survives.** -/
theorem burst_survives
    (hmeet : StepsMeet (fun s _ => s.mailbox.working.length + s.mailbox.queue.length ≤
      eventQueueCapacity) (EventMonitor.step parse) start as)
    (hrun : run (EventMonitor.step parse) start as = some s) :
    ∀ channel, s.mailbox.dropped channel = 0 := by
  have hstart : Mailbox.NoneDropped (start : EventMonitor ι ε).mailbox :=
    ⟨fun _ => rfl, by simp [start, Mailbox.empty]⟩
  refine (run_invariant_of_meets (I := fun s => Mailbox.NoneDropped s.mailbox) ?_ hstart hmeet
    hrun).1
  intro s a t h hroom hstep
  cases a with
  | callback channel action now rendered =>
      cases action with
      | deliver =>
          simp only [EventMonitor.step] at hstep
          obtain ⟨after, hafter, rfl⟩ := Option.map_eq_some_iff.mp hstep
          exact h.step hroom hafter
      | _ =>
          obtain rfl := Option.some.inj hstep
          exact h
  | proceed place =>
      obtain ⟨after, hafter, rfl⟩ := Option.map_eq_some_iff.mp hstep
      exact h.step hroom hafter
  | call limit =>
      simp only [EventMonitor.step] at hstep
      split at hstep
      · obtain rfl := Option.some.inj hstep
        exact h
      · cases hstep
  | receive =>
      simp only [EventMonitor.step] at hstep
      split at hstep
      · obtain ⟨after, hafter, rfl⟩ := Option.map_eq_some_iff.mp hstep
        exact h.step hroom hafter
      · obtain rfl := Option.some.inj hstep
        exact h
      · cases hstep

end accounted

/-- A process was created. -/
def processAudit : XmlReader := fun _ => [.start "EventID" [], .text (.ok "4688"), .close "EventID"]

/-- An event of the Security channel arrives, and is drained. -/
def sampleIntake : List (IntakeAction String) :=
  [.callback "Security" .deliver "unix:1760000000" (.ok "<Event/>"), .proceed 0, .call 512, .receive]

theorem sampleIntake_isSome :
    (run (EventMonitor.step (windowsEvent processAudit)) start sampleIntake).isSome := by decide

/-- The texts of the events as they are. -/
def keepText (_ _ : String) (rendered : Except String String) : Option String := rendered.toOption

theorem keepText_isSome : (run (EventMonitor.step keepText) start sampleIntake).isSome := by decide

/-- `burst_survives` for a drained event. -/
theorem burst_survives_sample :
    ((run (EventMonitor.step keepText) start sampleIntake).get keepText_isSome).mailbox.dropped
      "Security" = 0 :=
  burst_survives (by simp [StepsMeet, sampleIntake, EventMonitor.step, Mailbox.step, start,
    Mailbox.empty, eventQueueCapacity, drainLimit, keepText, Except.toOption])
    (Option.some_get keepText_isSome).symm _

end EventMonitor

end OpenGuard.Windows
