import OpenGuard.Detection.Scan
import OpenGuard.Service.Blocks
import OpenGuard.Service.PersistenceResponse
import OpenGuard.Service.Quarantine
import OpenGuard.Service.Restore
import OpenGuard.Windows.Processes

/-!
# Response actions

`execute_response` checks a request, acts, and writes what it did to the timeline. The environment
chooses how every call of the action ends; when it stops the service during the action there is no
answer.

* `executeResponse`: the request.
* `inner_extends`: the actions write no row of a response.
* `response_confirmed_and_audited`: what is changed was confirmed, and every answer has one row.
-/

namespace OpenGuard.Service

open OpenGuard.Lib OpenGuard.Domain OpenGuard.Storage OpenGuard.Detection OpenGuard.Windows

/-! ## The world -/

/-- What the service is built with: the digest of an id and of a file, `serde_json::from_str`, the
texts of errors of the file system, the id of the service and the quarantine directory. -/
structure ResponseSetup where
  digest : String → String
  sha256 : Bytes → String
  parse : String → Option Json
  ioText : IoError → String
  ownPid : UInt32
  quarantineRoot : String

/-- Everything that a response action can change. The timeline is among the tables of the
inventory. -/
structure ResponseWorld where
  processes : ProcessWorld
  store : QuarantineStore
  firewall : Firewall
  expiries : List ExpiryThread
  persistence : PersistenceWorld

/-- The rows of the timeline. -/
def ResponseWorld.timeline (world : ResponseWorld) : RowTable TimelineRow :=
  world.persistence.inventory.tables.2

/-- The timeline has other rows. -/
def ResponseWorld.withTimeline (timeline : RowTable TimelineRow) (world : ResponseWorld) :
    ResponseWorld :=
  { world with
    persistence :=
      { world.persistence with
        inventory :=
          { world.persistence.inventory with
            tables := (world.persistence.inventory.tables.1, timeline) } } }

/-- What the environment chooses for a request: the calls of process control; the scan and the
effects of the quarantine; the calls of a block and of its undoing; those of the actions on startup
registrations; and those of the audit, with the id that is drawn for it. -/
structure ResponseChoice where
  processCalls : List ProcessChoice
  scanned : Except ScanError ScanFinding
  quarantineNow : Clock
  quarantineActions : List QuarantineAction
  rollbackId : String
  blockTools : BlockTools
  blockNow : Clock
  record : Fault
  spawned : Bool
  read : Fault
  netsh : Option String
  markNow : Clock
  mark : Fault
  disable : DisableChoice
  restore : RestoreChoice
  auditId : String
  auditNow : Clock
  audit : Fault

/-! ## The actions -/

section actions

variable (setup : ResponseSetup) (clientSid : String)

/-- The action of process control, as the Windows layer is told.
Source: `main.rs`, `ServiceState::execute_response_inner` -/
def controlName : ResponseActionKind → String
  | .terminateProcess => "terminate"
  | .terminateProcessTree => "terminate_tree"
  | .suspendProcess => "suspend"
  | _ => "resume"

/-- Source: `main.rs`, `ServiceState::execute_response_inner` -/
def controlProgram (action : ResponseActionKind) (pid : UInt32) (path : String) :
    ProcessProgram ProcessControlResult :=
  if action = .terminateProcessTree then terminateProcessTree setup.ownPid pid path
  else controlProcess setup.ownPid (controlName action) pid path

/-- Processes are terminated, suspended or resumed.
Source: `main.rs`, `ServiceState::execute_response_inner` -/
def controlResponse (request : ResponseActionRequest) (calls : List ProcessChoice)
    (processes : ProcessWorld) : Option (Except ApiError ResponseOutcome) × ProcessWorld :=
  match request.processId with
  | none => (some (.error (invalidResponse "A process ID is required")), processes)
  | some pid =>
      let (left, processes) := Program.exec processAnswer
        (controlProgram setup request.action pid request.expectedPath).run processes calls
      (left.result?.map fun result =>
        match result with
        | .error error => .error (responseApiError error)
        | .ok result => .ok ⟨"PID " ++ pidText pid, result.detail, none, none⟩, processes)

/-- The call as a whole, on the effects that the environment lets happen.
Source: `main.rs`, `ServiceState::quarantine_finding` -/
def quarantineFinding (call : QuarantineCall) (actions : List QuarantineAction)
    (store : QuarantineStore) : Option (Except ApiError QuarantineRecord) × QuarantineStore :=
  match run (quarantineStep setup.sha256 call) ⟨store.files, store.rows, .verifying⟩ actions with
  | none => (none, store)
  | some ⟨files, rows, .returned result⟩ => (some result, ⟨files, rows⟩)
  | some ⟨files, rows, _⟩ => (none, ⟨files, rows⟩)

/-- The file may be quarantined by a response.
Source: `main.rs`, `ServiceState::execute_response_inner` -/
def checkScanned (scanned : Except ScanError ScanFinding) : Except ApiError ScanFinding :=
  match scanned with
  | .error error =>
      .error ⟨.conflict, "Scan before quarantine: " ++ error.display setup.ioText, false⟩
  | .ok finding =>
      if finding.verdict = .suspicious ∨ finding.verdict = .malicious then .ok finding
      else
        .error ⟨.conflict, "OpenGuard only quarantines files currently detected as suspicious or " ++
          "malicious", false⟩

/-- A file is quarantined.
Source: `main.rs`, `ServiceState::execute_response_inner` -/
def quarantineResponse (choice : ResponseChoice) (store : QuarantineStore) :
    Option (Except ApiError ResponseOutcome) × QuarantineStore :=
  match checkScanned setup choice.scanned with
  | .error error => (some (.error error), store)
  | .ok finding =>
      let call := ⟨clientSid, setup.quarantineRoot, finding.path, choice.quarantineNow⟩
      let (result, store) := quarantineFinding setup call choice.quarantineActions store
      (result.map fun result =>
        result.map fun record =>
          ⟨record.originalPath, "Quarantined as " ++ record.id, some record.id, none⟩, store)

/-- What a block and its undoing change. -/
structure BlockStore where
  firewall : Firewall
  rollbacks : Rollbacks
  expiries : List ExpiryThread

/-- A remote address is blocked.
Source: `main.rs`, `ServiceState::execute_response_inner` -/
def blockResponse (request : ResponseActionRequest) (choice : ResponseChoice)
    (store : BlockStore) : Except ApiError ResponseOutcome × BlockStore :=
  match checkBlockRequest request with
  | .error error => (.error error, store)
  | .ok (pid, duration) =>
      let block : PendingBlock := ⟨clientSid, request, pid, duration, choice.rollbackId⟩
      match blockRemoteAddress choice.blockTools (ruleName block.rollbackId)
          request.remoteAddress pid request.expectedPath store.firewall with
      | (.error error, firewall) => (.error (responseApiError error), { store with firewall })
      | (.ok (), firewall) =>
          match recordResponseRollback choice.record clientSid (block.rollback choice.blockNow)
              store.rollbacks with
          | (.error error, rollbacks) =>
              (.error (storageApiError "Record firewall rollback" error),
                { store with firewall, rollbacks })
          | (.ok (), rollbacks) =>
              (.ok (block.outcome choice.blockNow),
                ⟨firewall, rollbacks, store.expiries ++
                  BlockState.scheduleFirewallExpiry choice.blockNow choice.spawned clientSid
                    block.rollbackId (ruleName block.rollbackId) (duration.toNat * 60)⟩)

/-- A block is undone.
Source: `main.rs`, `ServiceState::execute_response_inner` -/
def unblockResponse (request : ResponseActionRequest) (choice : ResponseChoice)
    (store : BlockStore) : Except ApiError ResponseOutcome × BlockStore :=
  match responseRollback choice.read clientSid request.rollbackId store.rollbacks with
  | .error error => (.error (storageApiError "Read firewall rollback" error), store)
  | .ok found =>
      match found.filter (·.action == blockAction) with
      | none => (.error (invalidResponse "Active firewall rollback was not found"), store)
      | some rollback =>
          match removeFirewallRule choice.netsh rollback.payload store.firewall with
          | (.error error, firewall) => (.error (responseApiError error), { store with firewall })
          | (.ok (), firewall) =>
              match markResponseRestored choice.mark clientSid rollback.id
                  choice.markNow.unixTimestamp store.rollbacks with
              | (.error error, rollbacks) =>
                  (.error (storageApiError "Complete firewall rollback" error),
                    { store with firewall, rollbacks })
              | (.ok _, rollbacks) =>
                  (.ok (unblockOutcome rollback.target), { store with firewall, rollbacks })

/-- The parts that a block changes. -/
def ResponseWorld.blocks (world : ResponseWorld) : BlockStore :=
  ⟨world.firewall, world.persistence.rollbacks, world.expiries⟩

/-- The parts that a block changes are others. -/
def ResponseWorld.withBlocks (store : BlockStore) (world : ResponseWorld) : ResponseWorld :=
  { world with
    firewall := store.firewall
    expiries := store.expiries
    persistence := { world.persistence with rollbacks := store.rollbacks } }

/-- Source: `main.rs`, `ServiceState::execute_response_inner` -/
def executeResponseInner (request : ResponseActionRequest) (choice : ResponseChoice)
    (world : ResponseWorld) : Option (Except ApiError ResponseOutcome) × ResponseWorld :=
  match request.action with
  | .terminateProcess | .terminateProcessTree | .suspendProcess | .resumeProcess =>
      let (answer, processes) :=
        controlResponse setup request choice.processCalls world.processes
      (answer, { world with processes })
  | .quarantineFile =>
      let (answer, store) := quarantineResponse setup clientSid choice world.store
      (answer, { world with store })
  | .blockRemoteAddress =>
      let (answer, store) := blockResponse clientSid request choice world.blocks
      (some answer, world.withBlocks store)
  | .unblockRemoteAddress =>
      let (answer, store) := unblockResponse clientSid request choice world.blocks
      (some answer, world.withBlocks store)
  | .disablePersistence =>
      let (answer, persistence) := disablePersistence setup.digest clientSid request.persistenceId
        choice.disable world.persistence
      (some answer, { world with persistence })
  | .restorePersistence =>
      let (answer, persistence) := restorePersistence setup.parse clientSid request.rollbackId
        choice.restore world.persistence
      (some answer, { world with persistence })

/-! ## The audit -/

/-- The event of a request that failed.
Source: `main.rs`, `ServiceState::audit_response_failure` -/
def failureEvent (request : ResponseActionRequest) (choice : ResponseChoice) (message : String) :
    TimelineEvent where
  category := "response"
  action := responseActionName request.action ++ "_failed"
  severity := .medium
  title := "Response action rejected or failed"
  detail := message
  processId := request.processId
  path := request.expectedPath
  remoteAddress := request.remoteAddress
  correlationId := choice.auditId
  occurredAt := choice.auditNow.unixTimestamp

/-- The event of a request that succeeded.
Source: `main.rs`, `ServiceState::execute_response` -/
def completedEvent (request : ResponseActionRequest) (choice : ResponseChoice)
    (outcome : ResponseOutcome) : TimelineEvent where
  category := "response"
  action := responseActionName request.action
  severity := .info
  title := "User-confirmed response completed"
  detail := outcome.outcome
  processId := request.processId
  path := request.expectedPath
  remoteAddress := request.remoteAddress
  correlationId := outcome.rollbackId.getD choice.auditId
  occurredAt := choice.auditNow.unixTimestamp

/-- The failure is written, if that works.
Source: `main.rs`, `ServiceState::audit_response_failure` -/
def auditResponseFailure (request : ResponseActionRequest) (choice : ResponseChoice)
    (message : String) (world : ResponseWorld) : ResponseWorld :=
  world.withTimeline
    (recordTimeline choice.audit clientSid (failureEvent request choice message) world.timeline).2

/-- Source: `main.rs`, `ServiceState::execute_response` -/
def executeResponse (request : ResponseActionRequest) (choice : ResponseChoice)
    (world : ResponseWorld) : Option (Except ApiError ResponseActionResult) × ResponseWorld :=
  match checkResponse request with
  | .error error =>
      (some (.error error), auditResponseFailure clientSid request choice error.message world)
  | .ok () =>
      match executeResponseInner setup clientSid request choice world with
      | (none, world) => (none, world)
      | (some (.error error), world) =>
          (some (.error error), auditResponseFailure clientSid request choice error.message world)
      | (some (.ok outcome), world) =>
          match recordTimeline choice.audit clientSid (completedEvent request choice outcome)
              world.timeline with
          | (.error error, timeline) =>
              (some (.error (storageApiError "Audit response action" error)),
                world.withTimeline timeline)
          | (.ok id, timeline) =>
              (some (.ok (outcome.result request.action id)), world.withTimeline timeline)

end actions

/-! ## The rows of the responses -/

/-- The rows that the audit of the responses has written, for whichever owner. -/
def responseRows (timeline : RowTable TimelineRow) : List TimelineRow :=
  (timeline.rows.map Prod.snd).filter (·.category == "response")

section rows

variable {setup : ResponseSetup} {clientSid : String} {request : ResponseActionRequest}
  {choice : ResponseChoice} {world : ResponseWorld} {timeline : RowTable TimelineRow}
  {event : TimelineEvent}

/-- An event of a response adds its row. -/
theorem responseRows_insert (hcategory : event.category = "response") :
    responseRows (insertTimeline clientSid event timeline) =
      responseRows timeline ++ [TimelineRow.ofEvent clientSid event] := by
  have hkept : (TimelineRow.ofEvent clientSid event).category = "response" := hcategory
  unfold responseRows insertTimeline
  rw [RowTable.rows_insert, List.map_append, List.filter_append]
  simp [hkept]

/-- Only rows that are no responses were added. -/
def ExtendsQuietly (before after : RowTable TimelineRow) : Prop :=
  ∃ new, after.rows = before.rows ++ new ∧ ∀ row ∈ new, row.2.category ≠ "response"

theorem ExtendsQuietly.refl (timeline : RowTable TimelineRow) : ExtendsQuietly timeline timeline :=
  ⟨[], (List.append_nil _).symm, nofun⟩

/-- They are the same responses. -/
theorem ExtendsQuietly.responseRows_eq {before after : RowTable TimelineRow}
    (h : ExtendsQuietly before after) : responseRows after = responseRows before := by
  obtain ⟨new, hrows, hnew⟩ := h
  unfold responseRows
  rw [hrows, List.map_append, List.filter_append]
  have hnone : (new.map Prod.snd).filter (·.category == "response") = [] := by
    refine List.filter_eq_nil_iff.mpr fun row hrow => ?_
    obtain ⟨entry, hentry, rfl⟩ := List.mem_map.mp hrow
    simp only [beq_iff_eq]
    exact hnew entry hentry
  rw [hnone, List.append_nil]

/-- The changes of the inventory are not responses. -/
theorem extends_sync {fault : Fault} {order : IterOrder String PersistenceRow}
    {items : List PersistenceItem} {observedAt : String} {tables : InventoryTables} :
    ExtendsQuietly tables.2
      (syncPersistenceInventory fault order clientSid items observedAt tables).2.2 := by
  cases fault with
  | some error => exact .refl tables.2
  | none =>
      obtain ⟨new, hrows, hnew⟩ := rows_foldl_insertTimeline clientSid _ tables.2
      refine ⟨new, hrows, fun row hrow => ?_⟩
      have hmem := List.mem_map_of_mem (f := Prod.snd) hrow
      rw [hnew] at hmem
      obtain ⟨event, hevent, hsame⟩ := List.mem_map.mp hmem
      have hcategory : event.category = "persistence" := by
        obtain hchanged | hremoved := List.mem_append.mp hevent
        · obtain ⟨item, -, hitem⟩ := List.mem_filterMap.mp hchanged
          obtain ⟨change, -, rfl⟩ := Option.map_eq_some_iff.mp hitem
          rfl
        · obtain ⟨id, -, rfl⟩ := List.mem_map.mp hremoved
          rfl
      rw [← hsame]
      show event.category ≠ "response"
      rw [hcategory]
      decide

theorem extends_persistenceInventory (digest : String → String) (inventory : InventoryRequest)
    (state : InventoryState) :
    ExtendsQuietly state.tables.2
      (persistenceInventory digest clientSid inventory state).2.tables.2 := by
  unfold persistenceInventory
  split
  · exact .refl _
  · have hsync : ExtendsQuietly state.tables.2
        (syncPersistenceInventory inventory.fault inventory.order clientSid
          (inventory.inventory digest clientSid).items
          (inventory.inventory digest clientSid).collectedAt state.tables).2.2 := extends_sync
    dsimp only
    split
    · rename_i hfailed
      rw [hfailed] at hsync
      exact hsync
    · rename_i hdone
      rw [hdone] at hsync
      exact hsync

/-- A disable writes to the timeline only what its request for the inventory writes. -/
theorem disable_tables (digest : String → String) (persistenceId : String) (choice : DisableChoice)
    (world : PersistenceWorld) :
    (disablePersistence digest clientSid persistenceId choice world).2.inventory.tables =
      (persistenceInventory digest clientSid { choice.collection with refresh := false }
        world.inventory).2.tables := by
  unfold disablePersistence
  rcases persistenceInventory digest clientSid { choice.collection with refresh := false }
    world.inventory with ⟨error | inventory, state⟩
  · rfl
  dsimp only
  rcases persistenceItem choice.read clientSid persistenceId state.tables.1 with
    error | _ | item
  · rfl
  · rfl
  dsimp only
  rcases checkDisable item with error | _
  · rfl
  dsimp only
  rcases setPersistenceEnabled choice.tools item.category item.location false none world.system
    with ⟨error | _, system⟩
  · rfl
  dsimp only
  rcases recordResponseRollback choice.record clientSid (disableRollback choice item)
    world.rollbacks with ⟨error | _, rollbacks⟩
  · rfl
  · rfl

/-- A restore writes nothing to the timeline. -/
theorem restore_tables (parse : String → Option Json) (rollbackId : String)
    (choice : RestoreChoice) (world : PersistenceWorld) :
    (restorePersistence parse clientSid rollbackId choice world).2.inventory.tables =
      world.inventory.tables := by
  unfold restorePersistence
  rcases responseRollback choice.read clientSid rollbackId world.rollbacks with error | found
  · rfl
  dsimp only
  split
  · rfl
  rename_i rollback hfound
  rcases parse rollback.payload with _ | payload
  · rfl
  dsimp only
  rcases setPersistenceEnabled choice.tools (payloadText payload "category")
    (payloadText payload "location") true ((payload.get "previous_state").bind jsonStr)
    world.system with ⟨error | _, system⟩
  · rfl
  dsimp only
  rcases markResponseRestored choice.mark clientSid rollback.id choice.now.unixTimestamp
    world.rollbacks with ⟨error | marked, rollbacks⟩
  · rfl
  · rfl

/-- **The actions** write no row of a response. -/
theorem inner_extends : ExtendsQuietly world.timeline
    (executeResponseInner setup clientSid request choice world).2.timeline := by
  unfold executeResponseInner ResponseWorld.timeline
  cases request.action with
  | disablePersistence =>
      dsimp only
      rw [disable_tables]
      exact extends_persistenceInventory setup.digest _ _
  | restorePersistence =>
      dsimp only
      rw [restore_tables]
      exact .refl _
  | _ => exact .refl _

end rows

/-! ## Confirmed and audited -/

/-- Nothing is changed but the timeline: no process, no file, no rule and no thread that would
remove one, no startup registration, no record. -/
structure SameProtection (before after : ResponseWorld) : Prop where
  processes : after.processes = before.processes
  store : after.store = before.store
  firewall : after.firewall = before.firewall
  expiries : after.expiries = before.expiries
  rollbacks : after.persistence.rollbacks = before.persistence.rollbacks
  system : after.persistence.system = before.persistence.system
  items : after.persistence.inventory.tables.1 = before.persistence.inventory.tables.1
  cache : after.persistence.inventory.cache = before.persistence.inventory.cache

/-- The row of an answer: it is the client's, and says whether the request succeeded. -/
structure AuditRow (clientSid : String) (action : ResponseActionKind)
    (answer : Except ApiError ResponseActionResult) (row : TimelineRow) : Prop where
  owner : row.ownerSid = clientSid
  succeeded : row.action = responseActionName action ↔ answer.isOk
  failed : row.action = responseActionName action ++ "_failed" ↔ ¬answer.isOk

section audit

variable {setup : ResponseSetup} {clientSid : String} {request : ResponseActionRequest}
  {choice : ResponseChoice} {world : ResponseWorld}

/-- A name with something behind it is another one. -/
theorem name_ne_failed (name : String) : name ≠ name ++ "_failed" := by
  intro hsame
  have hlength := congrArg String.length hsame
  rw [String.length_append] at hlength
  have hsuffix : "_failed".length = 7 := rfl
  omega

theorem auditRow_failed (choice : ResponseChoice) (error : ApiError) (message : String) :
    AuditRow clientSid request.action (.error error)
      (TimelineRow.ofEvent clientSid (failureEvent request choice message)) where
  owner := rfl
  succeeded := by
    constructor
    · intro hname
      exact absurd hname (name_ne_failed _).symm
    · intro hok
      cases hok
  failed := by
    constructor
    · intro _ hok
      cases hok
    · intro _
      rfl

theorem auditRow_completed (outcome : ResponseOutcome) (id : ℤ) :
    AuditRow clientSid request.action (.ok (outcome.result request.action id))
      (TimelineRow.ofEvent clientSid (completedEvent request choice outcome)) where
  owner := rfl
  succeeded := by
    constructor
    · intro _
      rfl
    · intro _
      rfl
  failed := by
    constructor
    · intro hname
      exact absurd hname (name_ne_failed _)
    · intro hnot
      exact absurd rfl hnot

/-- A failure is audited with one row. -/
theorem responseRows_failure (clientSid : String) (request : ResponseActionRequest)
    (world : ResponseWorld) (haudit : choice.audit = none) (error : ApiError) :
    ∃ row, responseRows (auditResponseFailure clientSid request choice error.message
        world).timeline = responseRows world.timeline ++ [row] ∧
      AuditRow clientSid request.action (.error error) row := by
  refine ⟨_, ?_, auditRow_failed choice error error.message⟩
  unfold auditResponseFailure
  rw [haudit]
  exact responseRows_insert rfl

/-- A request that succeeds has written its row last. -/
theorem timeline_of_ok {result : ResponseActionResult}
    (h : (executeResponse setup clientSid request choice world).1 = some (.ok result)) :
    ∃ timeline outcome, ExtendsQuietly world.timeline timeline ∧
      (executeResponse setup clientSid request choice world).2.timeline =
        insertTimeline clientSid (completedEvent request choice outcome) timeline ∧
      result.action = request.action ∧ result.outcome = outcome.outcome := by
  unfold executeResponse at h ⊢
  cases hcheck : checkResponse request with
  | error error =>
      rw [hcheck] at h
      cases h
  | ok _ =>
      rw [hcheck] at h
      have hinner : ExtendsQuietly world.timeline
          (executeResponseInner setup clientSid request choice world).2.timeline := inner_extends
      dsimp only at h ⊢
      generalize executeResponseInner setup clientSid request choice world = inner at *
      obtain ⟨_ | error | outcome, after⟩ := inner
      · cases h
      · cases h
      · cases haudit : choice.audit with
        | some error =>
            dsimp only at h
            rw [haudit] at h
            cases h
        | none =>
            dsimp only at h
            rw [haudit] at h
            cases h
            exact ⟨after.timeline, outcome, hinner, rfl, rfl, rfl⟩

/-- **Responses are confirmed and audited.** Something besides the timeline is changed only when
every text of the request is within its bound and the confirmation names this very action; and when
the audit can be written, every answer has exactly one row, of this client, which says whether the
request succeeded. -/
theorem response_confirmed_and_audited (setup : ResponseSetup) (clientSid : String)
    (request : ResponseActionRequest) (choice : ResponseChoice) (world : ResponseWorld) :
    (¬SameProtection world (executeResponse setup clientSid request choice world).2 →
      boundedRequest request ∧
        request.confirmation = "confirm:" ++ responseActionName request.action) ∧
    (choice.audit = none →
      ∀ answer, (executeResponse setup clientSid request choice world).1 = some answer →
        ∃ row, responseRows (executeResponse setup clientSid request choice world).2.timeline =
            responseRows world.timeline ++ [row] ∧
          AuditRow clientSid request.action answer row) := by
  unfold executeResponse
  cases hcheck : checkResponse request with
  | error error =>
      constructor
      · intro hchanged
        exact absurd ⟨rfl, rfl, rfl, rfl, rfl, rfl, rfl, rfl⟩ hchanged
      · rintro haudit answer hanswer
        cases hanswer
        exact responseRows_failure clientSid request world haudit error
  | ok _ =>
      refine ⟨fun _ => checkResponse_ok_iff.mp hcheck, fun haudit answer hanswer => ?_⟩
      have hinner : responseRows
          (executeResponseInner setup clientSid request choice world).2.timeline =
          responseRows world.timeline := inner_extends.responseRows_eq
      dsimp only at hanswer ⊢
      generalize executeResponseInner setup clientSid request choice world = result at *
      obtain ⟨_ | error | outcome, after⟩ := result
      · cases hanswer
      · cases hanswer
        obtain ⟨row, hrows, hrow⟩ := responseRows_failure clientSid request after haudit
          error
        exact ⟨row, hrows.trans (congrArg (· ++ [row]) hinner), hrow⟩
      · dsimp only at hanswer hinner ⊢
        rw [haudit] at hanswer ⊢
        cases hanswer
        refine ⟨_, (responseRows_insert rfl).trans (congrArg (· ++ [_]) hinner), ?_⟩
        exact auditRow_completed outcome _

end audit

/-! ## A sample -/

/-- A setup in which the digest is the text itself. -/
def sampleSetup : ResponseSetup := ⟨id, sampleSha256, fun _ => none, fun _ => "", 77, ""⟩

/-- No process runs and no file is there; a service is registered. -/
def quietWorld : ResponseWorld where
  processes := .initial ⟨∅, 0, nofun⟩
  store := ⟨∅, ∅⟩
  firewall := ∅
  expiries := []
  persistence := storedWorld temporaryService

/-- Nothing fails. -/
def quietResponse : ResponseChoice where
  processCalls := []
  scanned := .error .cancelled
  quarantineNow := ⟨0, 1⟩
  quarantineActions := []
  rollbackId := "r-2"
  blockTools := ⟨fun _ => .ok "", fun _ => none, none⟩
  blockNow := ⟨0, 1⟩
  record := none
  spawned := true
  read := none
  netsh := none
  markNow := ⟨0, 1⟩
  mark := none
  disable := quietDisable
  restore := quietRestore
  auditId := "a-1"
  auditNow := ⟨0, 1⟩
  audit := none

/-- The service is to be disabled. -/
def disableRequest : ResponseActionRequest :=
  { (default : ResponseActionRequest) with
    action := .disablePersistence
    persistenceId := temporaryService.id
    confirmation := "confirm:disable_persistence" }

/-- The request succeeds and has its row. -/
theorem disable_has_row :
    ∃ row, responseRows (executeResponse sampleSetup "S-1" disableRequest quietResponse
        quietWorld).2.timeline = [row] ∧
      row.ownerSid = "S-1" ∧ row.action = "disable_persistence" := by
  obtain ⟨-, haudited⟩ :=
    response_confirmed_and_audited sampleSetup "S-1" disableRequest quietResponse quietWorld
  obtain ⟨row, hrows, hrow⟩ := haudited rfl _ rfl
  exact ⟨row, hrows, hrow.owner, hrow.succeeded.mpr rfl⟩

end OpenGuard.Service
