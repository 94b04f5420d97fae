import OpenGuard.Ipc.Protocol
import OpenGuard.Service.ContentRuns
import OpenGuard.Service.PolicyRequests
import OpenGuard.Service.ResponseAction

/-!
# The audit trail

The requests that change the protection, and what they leave in the history: the exclusions and the
allowed digests, quarantine and restore, the security content, and the response actions.

* `handleProtection`: these requests.
* `traced_iff`: a request that succeeds leaves a row of its client just when it is a response
  action.
-/

namespace OpenGuard.Service

open OpenGuard.Lib OpenGuard.Domain OpenGuard.Storage OpenGuard.Ipc

/-! ## The requests -/

/-- Everything that such a request can change, and the history: the timeline is in the world of the
responses. -/
structure ProtectionWorld where
  response : ResponseWorld
  securityEvents : RowTable SecurityEventRow
  exclusions : Exclusions
  hashAllowlist : HashAllowlist
  content : ContentWorld

/-- What the environment chooses for a request. -/
structure ProtectionChoice where
  policy : PolicyChoice
  quarantineNow : Clock
  quarantineActions : List QuarantineAction
  restore : RestoreFaults
  restoreNow : Clock
  install : InstallChoices
  rollback : RollbackFaults
  response : ResponseChoice

/-- The answers of a request that succeeds.
Source: `protocol.rs`, `ResponseData` -/
inductive ProtectionData where
  | policyChanged
  | quarantineChanged (record : QuarantineRecord)
  | contentStatus (status : ContentStatus)
  | responseAction (result : ResponseActionResult)

section requests

variable (setup : ResponseSetup) (content : ContentSetup) (clientSid : String)

/-- The requests that change the protection; there is no answer when the service is stopped during
one. The other requests are not modelled here.
Source: `main.rs`, `handle_request` -/
def handleProtection (choice : ProtectionChoice) (world : ProtectionWorld) :
    Request → Option (Except ApiError ProtectionData) × ProtectionWorld
  | .addExclusion path recursive =>
      let (answer, exclusions) :=
        addExclusionRequest clientSid path recursive choice.policy world.exclusions
      (some (answer.map fun _ => .policyChanged), { world with exclusions })
  | .removeExclusion path =>
      let (answer, exclusions) :=
        removeExclusionRequest clientSid path choice.policy world.exclusions
      (some (answer.map fun _ => .policyChanged), { world with exclusions })
  | .allowHash sha256 label =>
      let (answer, hashAllowlist) :=
        allowHashRequest clientSid sha256 label choice.policy world.hashAllowlist
      (some (answer.map fun _ => .policyChanged), { world with hashAllowlist })
  | .removeAllowedHash sha256 =>
      let (answer, hashAllowlist) :=
        removeAllowedHashRequest clientSid sha256 choice.policy world.hashAllowlist
      (some (answer.map fun _ => .policyChanged), { world with hashAllowlist })
  | .quarantine finding =>
      let call := ⟨clientSid, setup.quarantineRoot, finding.path, choice.quarantineNow⟩
      let (answer, store) :=
        quarantineFinding setup call choice.quarantineActions world.response.store
      (answer.map (·.map .quarantineChanged),
        { world with response := { world.response with store } })
  | .restoreQuarantine quarantineId destination =>
      let (answer, store) := restoreQuarantine setup.sha256 choice.restore
        ⟨clientSid, quarantineId, destination, choice.restoreNow⟩ world.response.store
      (some (answer.map .quarantineChanged),
        { world with response := { world.response with store } })
  | .installContentUpdate =>
      match world.content.service with
      | none => (none, world)
      | some state =>
          let (outcome, after) := installContentUpdate content choice.install world.content state
          (outcome.map (·.answer.map .contentStatus), { world with content := after })
  | .rollbackContentUpdate =>
      match world.content.service with
      | none => (none, world)
      | some state =>
          let (outcome, after) := rollbackContentUpdate content choice.rollback world.content state
          (some (outcome.answer.map .contentStatus), { world with content := after })
  | .executeResponse request =>
      let (answer, response) :=
        executeResponse setup clientSid request choice.response world.response
      (answer.map (·.map .responseAction), { world with response })
  | _ => (none, world)

end requests

/-! ## The trace -/

/-- The history has a row of the client that it did not have before. -/
def Traced (clientSid : String) (before after : ProtectionWorld) : Prop :=
  (∃ row ∈ after.response.timeline.rows,
    row ∉ before.response.timeline.rows ∧ row.2.ownerSid = clientSid) ∨
  ∃ row ∈ after.securityEvents.rows,
    row ∉ before.securityEvents.rows ∧ row.2.ownerSid = clientSid

/-- The request is a response action. -/
def IsResponse : Request → Prop
  | .executeResponse _ => True
  | _ => False

section trace

variable {setup : ResponseSetup} {content : ContentSetup} {clientSid : String}
  {choice : ProtectionChoice} {world : ProtectionWorld} {data : ProtectionData}

/-- Where the history is the same, there is no trace. -/
theorem not_traced {after : ProtectionWorld}
    (htimeline : after.response.timeline = world.response.timeline)
    (hevents : after.securityEvents = world.securityEvents) : ¬Traced clientSid world after := by
  rintro (⟨row, hrow, hnew, -⟩ | ⟨row, hrow, hnew, -⟩)
  · exact hnew (htimeline ▸ hrow)
  · exact hnew (hevents ▸ hrow)

/-- What is no response action leaves the history as it is. -/
theorem history_of_not_response (setup : ResponseSetup) (content : ContentSetup)
    (clientSid : String) (choice : ProtectionChoice) (world : ProtectionWorld) {request : Request}
    (h : ¬IsResponse request) :
    (handleProtection setup content clientSid choice world request).2.response.timeline =
        world.response.timeline ∧
      (handleProtection setup content clientSid choice world request).2.securityEvents =
        world.securityEvents := by
  unfold handleProtection
  cases request with
  | executeResponse request => exact absurd trivial h
  | installContentUpdate =>
      dsimp only
      split <;> exact ⟨rfl, rfl⟩
  | rollbackContentUpdate =>
      dsimp only
      split <;> exact ⟨rfl, rfl⟩
  | _ => exact ⟨rfl, rfl⟩

/-- A row that is inserted behind others was not among them. -/
theorem inserted_is_new (clientSid : String) (event : TimelineEvent)
    {before timeline : RowTable TimelineRow} (h : ExtendsQuietly before timeline) :
    ∃ row ∈ (insertTimeline clientSid event timeline).rows,
      row ∉ before.rows ∧ row.2 = TimelineRow.ofEvent clientSid event := by
  obtain ⟨new, hrows, -⟩ := h
  refine ⟨(timeline.nextId, TimelineRow.ofEvent clientSid event),
    RowTable.mem_insert.mpr (.inr rfl),
    fun hold => ?_, rfl⟩
  have hmem : (timeline.nextId, TimelineRow.ofEvent clientSid event) ∈ timeline.rows := by
    rw [hrows]
    exact List.mem_append_left _ hold
  exact absurd (RowTable.lt_nextId hmem) (Nat.lt_irrefl _)

/-- A response action that succeeds leaves a row that names it and says how it ended. -/
theorem response_leaves_row {request : ResponseActionRequest} {result : ResponseActionResult}
    (hok : (executeResponse setup clientSid request choice.response world.response).1 =
      some (.ok result)) :
    ∃ row ∈ (executeResponse setup clientSid request choice.response
        world.response).2.timeline.rows,
      row ∉ world.response.timeline.rows ∧ row.2.ownerSid = clientSid ∧
        row.2.action = responseActionName result.action ∧ row.2.detail = result.outcome := by
  obtain ⟨timeline, outcome, hextends, htimeline, haction, houtcome⟩ := timeline_of_ok hok
  obtain ⟨row, hrow, hnew, hevent⟩ := inserted_is_new clientSid
    (completedEvent request choice.response outcome) hextends
  rw [htimeline]
  refine ⟨row, hrow, hnew, ?_, ?_, ?_⟩
  · rw [hevent]
    rfl
  · rw [hevent, haction]
    rfl
  · rw [hevent, houtcome]
    rfl

/-- **The trace of a change**: a request that succeeds leaves a row of its client just when it is a
response action, and then the row names the action and says how it ended. -/
theorem traced_iff (setup : ResponseSetup) (content : ContentSetup) (clientSid : String)
    (choice : ProtectionChoice) (world : ProtectionWorld) (request : Request)
    (data : ProtectionData)
    (hok : (handleProtection setup content clientSid choice world request).1 = some (.ok data)) :
    (Traced clientSid world (handleProtection setup content clientSid choice world request).2 ↔
      IsResponse request) ∧
    (IsResponse request → ∃ result, data = .responseAction result ∧
      ∃ row ∈ (handleProtection setup content clientSid choice world
          request).2.response.timeline.rows,
        row ∉ world.response.timeline.rows ∧ row.2.ownerSid = clientSid ∧
          row.2.action = responseActionName result.action ∧ row.2.detail = result.outcome) := by
  by_cases hresponse : IsResponse request
  · cases request with
    | executeResponse request =>
        obtain ⟨answer, hanswer, hdata⟩ := Option.map_eq_some_iff.mp hok
        cases answer with
        | error error => cases hdata
        | ok result =>
            cases hdata
            have hrow := response_leaves_row hanswer
            constructor
            · refine iff_of_true (.inl ?_) trivial
              obtain ⟨row, hmem, hnew, howner, -⟩ := hrow
              exact ⟨row, hmem, hnew, howner⟩
            · intro _
              exact ⟨result, rfl, hrow⟩
    | _ => exact hresponse.elim
  · obtain ⟨htimeline, hevents⟩ := history_of_not_response setup content clientSid choice
      world hresponse
    exact ⟨iff_of_false (not_traced htimeline hevents) hresponse, fun h => absurd h hresponse⟩

end trace

/-! ## Samples -/

/-- Nothing is stored but what the responses need. -/
def quietProtection : ProtectionWorld := ⟨quietWorld, .empty, ∅, ∅, ⟨none, ∅, none, []⟩⟩

/-- Nothing fails. -/
def quietProtectionChoice : ProtectionChoice where
  policy := ⟨fun path => .ok path, fun path => some path, ⟨0, 1⟩, none⟩
  quarantineNow := ⟨0, 1⟩
  quarantineActions := []
  restore := default
  restoreNow := ⟨0, 1⟩
  install := ⟨.ok [], "", [], .never⟩
  rollback := .never
  response := quietResponse

/-- A response action that succeeds is traced. -/
theorem disable_traced :
    Traced "S-1" quietProtection (handleProtection sampleSetup feedSetup "S-1"
      quietProtectionChoice quietProtection (.executeResponse disableRequest)).2 :=
  (traced_iff sampleSetup feedSetup "S-1" quietProtectionChoice quietProtection
    (.executeResponse disableRequest) _ rfl).1.mpr trivial

/-- An exclusion of a whole drive leaves no trace. -/
theorem exclusion_not_traced :
    (handleProtection sampleSetup feedSetup "S-1" quietProtectionChoice quietProtection
        (.addExclusion "C:\\" true)).1 = some (.ok .policyChanged) ∧
      (handleProtection sampleSetup feedSetup "S-1" quietProtectionChoice quietProtection
        (.addExclusion "C:\\" true)).2.exclusions.lookup ("S-1", "c:") =
          some ⟨"C:\\", true, "unix:1"⟩ ∧
      ¬Traced "S-1" quietProtection (handleProtection sampleSetup feedSetup "S-1"
        quietProtectionChoice quietProtection (.addExclusion "C:\\" true)).2 := by
  refine ⟨rfl, by decide +kernel, not_traced ?_ ?_⟩
  · rfl
  · rfl

end OpenGuard.Service
