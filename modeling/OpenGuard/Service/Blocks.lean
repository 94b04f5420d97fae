import OpenGuard.Lib.Run
import OpenGuard.Service.Response
import OpenGuard.Windows.Firewall

/-!
# Network blocks as a machine

The rules are in the firewall and the records that undo them in the database. The pipe loop works
on one request at a time; an expiry thread for each record works beside it. Each action is one call
on the firewall or on the database, with the outcome that the environment chooses, so every order
of the calls of the request and of the threads is a run, and the service can crash between any two
of them.

* `step`: the machine.
* `start_cases`, …, `expireMark_cases`: for each action all that it can do.
-/

namespace OpenGuard.Service

open OpenGuard.Lib OpenGuard.Domain OpenGuard.Storage OpenGuard.Windows

/-! ## The machine -/

/-- What comes next in the undoing of a block. -/
inductive ClosingStage where
  | waiting
  | removing
  | marking
  | finished
  deriving DecidableEq, Inhabited

/-- The undoing of a block, by a request or by an expiry thread. -/
structure Closing where
  ownerSid : String
  rollbackId : String
  ruleName : String
  stage : ClosingStage
  deriving DecidableEq, Inhabited

/-- An expiry thread, and when it wakes on the monotonic clock. -/
structure ExpiryThread where
  closing : Closing
  wakesAt : ℕ
  deriving DecidableEq, Inhabited

/-- The call that the pipe loop makes next. -/
inductive RequestPhase where
  | idle
  | installing (block : PendingBlock)
  | recording (block : PendingBlock)
  | reading (clientSid : String) (request : ResponseActionRequest)
  | unblocking (request : ResponseActionRequest) (target : String) (closing : Closing)
  | auditing (request : ResponseActionRequest) (outcome : ResponseOutcome)
  deriving DecidableEq, Inhabited

/-- Both stores, and where the pipe loop and the threads stand. The last three fields only record
the run: the ids that were drawn, the ids of the records that were reported closed, and the answers
with the id that was drawn for them. -/
structure BlockState where
  firewall : Firewall
  rollbacks : Rollbacks
  running : Bool
  request : RequestPhase
  expiries : List ExpiryThread
  drawn : List String
  closed : List String
  answered : List (Option String × Except ApiError ResponseActionResult)

/-- A call with the outcome the environment chooses. `submit` carries the id that is drawn if the
request is a block, and `spawned` says of a thread whether it could be created. -/
inductive BlockAction where
  | start (now : Clock) (fault : Fault) (spawned : String → Bool)
  | crash
  | submit (clientSid : String) (request : ResponseActionRequest) (rollbackId : String)
  | install (tools : BlockTools)
  | record (now : Clock) (fault : Fault) (spawned : Bool)
  | read (fault : Fault)
  | remove (netsh : Option String)
  | mark (now : Clock) (fault : Fault)
  | audit (auditEventId : Except StorageError ℤ)
  | wake (thread : ℕ) (now : Clock) (fault : Fault)
  | expireRemove (thread : ℕ) (netsh : Option String)
  | expireMark (thread : ℕ) (now : Clock) (fault : Fault)

namespace BlockState

/-- The service before it starts. -/
def stopped (firewall : Firewall) (rollbacks : Rollbacks) : BlockState :=
  ⟨firewall, rollbacks, false, .idle, [], [], [], []⟩

/-- The pipe loop answers and waits for the next request. -/
def answer (drawn : Option String) (response : Except ApiError ResponseActionResult)
    (s : BlockState) : BlockState :=
  { s with request := .idle, answered := (drawn, response) :: s.answered }

/-- A drawn id is a fresh UUID: nothing in the stores bears it. -/
def Fresh (rollbackId : String) (s : BlockState) : Prop :=
  rollbackId ∉ s.drawn ∧ s.rollbacks.lookup rollbackId = none ∧ ruleName rollbackId ∉ s.firewall

instance (rollbackId : String) (s : BlockState) : Decidable (s.Fresh rollbackId) :=
  inferInstanceAs (Decidable (_ ∧ _ ∧ _))

/-- The thread that removes a rule after a delay, if it can be created.
Source: `main.rs`, `schedule_firewall_expiry` -/
def scheduleFirewallExpiry (now : Clock) (spawned : Bool) (ownerSid rollbackId ruleName : String)
    (delaySeconds : ℕ) : List ExpiryThread :=
  if spawned then
    [⟨⟨ownerSid, rollbackId, ruleName, .waiting⟩, now.instant + delaySeconds * 1000000000⟩]
  else []

/-- Source: `main.rs`, `create_state`, `recover_temporary_firewall_rules` -/
def start (now : Clock) (fault : Fault) (spawned : String → Bool) (s : BlockState) :
    Option BlockState :=
  if s.running then none
  else
    match activeResponseRollbacks fault blockAction s.rollbacks with
    | .error _ => some s
    | .ok active =>
        some { s with
          running := true
          expiries := active.flatMap fun owned =>
            scheduleFirewallExpiry now (spawned owned.rollback.id) owned.ownerSid
              owned.rollback.id owned.rollback.payload (remainingSeconds owned.rollback now) }

/-- The process ends: the request and the threads are gone, the stores stay. -/
def crash (s : BlockState) : Option BlockState :=
  if s.running then some { s with running := false, request := .idle, expiries := [] } else none

/-- A request comes in and is checked. Only blocks and their undoing are modelled here.
Source: `main.rs`, `ServiceState::execute_response`, `ServiceState::execute_response_inner` -/
def submit (clientSid : String) (request : ResponseActionRequest) (rollbackId : String)
    (s : BlockState) : Option BlockState :=
  if s.running ∧ s.request = .idle then
    match checkResponse request with
    | .error error => some (s.answer none (.error error))
    | .ok () =>
        if request.action = .blockRemoteAddress then
          match checkBlockRequest request with
          | .error error => some (s.answer none (.error error))
          | .ok (pid, duration) =>
              if s.Fresh rollbackId then
                some { s with
                  request := .installing ⟨clientSid, request, pid, duration, rollbackId⟩
                  drawn := rollbackId :: s.drawn }
              else none
        else if request.action = .unblockRemoteAddress then
          some { s with request := .reading clientSid request }
        else none
  else none

/-- Source: `main.rs`, `ServiceState::execute_response_inner` -/
def install (tools : BlockTools) (s : BlockState) : Option BlockState :=
  match s.request with
  | .installing block =>
      match blockRemoteAddress tools (ruleName block.rollbackId) block.request.remoteAddress
          block.pid block.request.expectedPath s.firewall with
      | (.error error, firewall) =>
          some ({ s with firewall }.answer (some block.rollbackId)
            (.error (responseApiError error)))
      | (.ok (), firewall) => some { s with firewall, request := .recording block }
  | _ => none

/-- Source: `main.rs`, `ServiceState::execute_response_inner` -/
def record (now : Clock) (fault : Fault) (spawned : Bool) (s : BlockState) : Option BlockState :=
  match s.request with
  | .recording block =>
      match recordResponseRollback fault block.clientSid (block.rollback now) s.rollbacks with
      | (.error error, rollbacks) =>
          some ({ s with rollbacks }.answer (some block.rollbackId)
            (.error (storageApiError "Record firewall rollback" error)))
      | (.ok (), rollbacks) =>
          some { s with
            rollbacks
            expiries := s.expiries ++
              scheduleFirewallExpiry now spawned block.clientSid block.rollbackId
                (ruleName block.rollbackId) (block.duration.toNat * 60)
            request := .auditing block.request (block.outcome now) }
  | _ => none

/-- Source: `main.rs`, `ServiceState::execute_response_inner` -/
def read (fault : Fault) (s : BlockState) : Option BlockState :=
  match s.request with
  | .reading clientSid request =>
      match responseRollback fault clientSid request.rollbackId s.rollbacks with
      | .error error =>
          some (s.answer none (.error (storageApiError "Read firewall rollback" error)))
      | .ok found =>
          match found.filter (·.action == blockAction) with
          | none =>
              some (s.answer none
                (.error (invalidResponse "Active firewall rollback was not found")))
          | some rollback =>
              some { s with
                request := .unblocking request rollback.target
                  ⟨clientSid, rollback.id, rollback.payload, .removing⟩ }
  | _ => none

/-- Source: `main.rs`, `ServiceState::execute_response_inner` -/
def remove (netsh : Option String) (s : BlockState) : Option BlockState :=
  match s.request with
  | .unblocking request target closing =>
      if closing.stage = .removing then
        match removeFirewallRule netsh closing.ruleName s.firewall with
        | (.error error, firewall) =>
            some ({ s with firewall }.answer none (.error (responseApiError error)))
        | (.ok (), firewall) =>
            some { s with
              firewall
              request := .unblocking request target { closing with stage := .marking } }
      else none
  | _ => none

/-- The records after an attempt to close one, and the report of it. -/
def close (now : Clock) (fault : Fault) (closing : Closing) (s : BlockState) :
    Except StorageError Bool × BlockState :=
  let (marked, rollbacks) := markResponseRestored fault closing.ownerSid closing.rollbackId
    now.unixTimestamp s.rollbacks
  (marked, { s with
    rollbacks
    closed := if marked = .ok true then closing.rollbackId :: s.closed else s.closed })

/-- Whether the record was open does not matter to the request.
Source: `main.rs`, `ServiceState::execute_response_inner` -/
def mark (now : Clock) (fault : Fault) (s : BlockState) : Option BlockState :=
  match s.request with
  | .unblocking request target closing =>
      if closing.stage = .marking then
        match s.close now fault closing with
        | (.error error, after) =>
            some (after.answer none
              (.error (storageApiError "Complete firewall rollback" error)))
        | (.ok _, after) =>
            some { after with request := .auditing request (unblockOutcome target) }
      else none
  | _ => none

/-- Source: `main.rs`, `ServiceState::execute_response` -/
def audit (auditEventId : Except StorageError ℤ) (s : BlockState) : Option BlockState :=
  match s.request with
  | .auditing request outcome =>
      match auditEventId with
      | .error error =>
          some (s.answer outcome.rollbackId
            (.error (storageApiError "Audit response action" error)))
      | .ok id => some (s.answer outcome.rollbackId (.ok (outcome.result request.action id)))
  | _ => none

/-- A thread goes on in another stage. -/
def setThread (thread : ℕ) (expiry : ExpiryThread) (stage : ClosingStage) (s : BlockState) :
    BlockState :=
  { s with
    expiries := s.expiries.set thread
      { expiry with closing := { expiry.closing with stage := stage } } }

/-- A thread wakes and looks whether the record is open; a failure to read it counts as closed.
Source: `main.rs`, `schedule_firewall_expiry` -/
def wake (thread : ℕ) (now : Clock) (fault : Fault) (s : BlockState) : Option BlockState :=
  match s.expiries[thread]? with
  | none => none
  | some expiry =>
      if expiry.closing.stage = .waiting ∧ expiry.wakesAt ≤ now.instant then
        match responseRollback fault expiry.closing.ownerSid expiry.closing.rollbackId
            s.rollbacks with
        | .ok (some _) => some (s.setThread thread expiry .removing)
        | _ => some (s.setThread thread expiry .finished)
      else none

/-- Source: `main.rs`, `schedule_firewall_expiry` -/
def expireRemove (thread : ℕ) (netsh : Option String) (s : BlockState) : Option BlockState :=
  match s.expiries[thread]? with
  | none => none
  | some expiry =>
      if expiry.closing.stage = .removing then
        match removeFirewallRule netsh expiry.closing.ruleName s.firewall with
        | (.error _, firewall) => some ({ s with firewall }.setThread thread expiry .finished)
        | (.ok (), firewall) => some ({ s with firewall }.setThread thread expiry .marking)
      else none

/-- Source: `main.rs`, `schedule_firewall_expiry` -/
def expireMark (thread : ℕ) (now : Clock) (fault : Fault) (s : BlockState) : Option BlockState :=
  match s.expiries[thread]? with
  | none => none
  | some expiry =>
      if expiry.closing.stage = .marking then
        some ((s.close now fault expiry.closing).2.setThread thread expiry .finished)
      else none

/-- **One step** of the machine. -/
def step (s : BlockState) : BlockAction → Option BlockState
  | .start now fault spawned => s.start now fault spawned
  | .crash => s.crash
  | .submit clientSid request rollbackId => s.submit clientSid request rollbackId
  | .install tools => s.install tools
  | .record now fault spawned => s.record now fault spawned
  | .read fault => s.read fault
  | .remove netsh => s.remove netsh
  | .mark now fault => s.mark now fault
  | .audit auditEventId => s.audit auditEventId
  | .wake thread now fault => s.wake thread now fault
  | .expireRemove thread netsh => s.expireRemove thread netsh
  | .expireMark thread now fault => s.expireMark thread now fault

/-! ## What each action does -/

section cases

variable {s t : BlockState} {now : Clock} {fault : Fault} {netsh : Option String} {thread : ℕ}

theorem start_cases {spawned : String → Bool} (h : s.start now fault spawned = some t) :
    s.running = false ∧ (t = s ∨ ∃ active,
      activeResponseRollbacks fault blockAction s.rollbacks = .ok active ∧
        t = { s with
          running := true
          expiries := active.flatMap fun owned =>
            scheduleFirewallExpiry now (spawned owned.rollback.id) owned.ownerSid
              owned.rollback.id owned.rollback.payload
              (remainingSeconds owned.rollback now) }) := by
  unfold start at h
  by_cases hrunning : s.running
  · simp [hrunning] at h
  · rw [if_neg hrunning] at h
    refine ⟨by simpa using hrunning, ?_⟩
    cases hactive : activeResponseRollbacks fault blockAction s.rollbacks with
    | error error =>
        rw [hactive] at h
        exact Or.inl (Option.some.inj h).symm
    | ok active =>
        rw [hactive] at h
        exact Or.inr ⟨active, rfl, (Option.some.inj h).symm⟩

theorem crash_cases (h : s.crash = some t) :
    s.running = true ∧ t = { s with running := false, request := .idle, expiries := [] } := by
  unfold crash at h
  by_cases hrunning : s.running
  · rw [if_pos hrunning] at h
    exact ⟨hrunning, (Option.some.inj h).symm⟩
  · simp [hrunning] at h

theorem submit_cases {clientSid rollbackId : String} {request : ResponseActionRequest}
    (h : s.submit clientSid request rollbackId = some t) :
    s.running = true ∧ s.request = .idle ∧
      ((∃ error, t = s.answer none (.error error)) ∨
        (s.Fresh rollbackId ∧ ∃ pid duration, t = { s with
          request := .installing ⟨clientSid, request, pid, duration, rollbackId⟩
          drawn := rollbackId :: s.drawn }) ∨
        t = { s with request := .reading clientSid request }) := by
  unfold submit at h
  by_cases hready : s.running ∧ s.request = .idle
  · rw [if_pos hready] at h
    refine ⟨hready.1, hready.2, ?_⟩
    cases hcheck : checkResponse request with
    | error error =>
        rw [hcheck] at h
        exact Or.inl ⟨error, (Option.some.inj h).symm⟩
    | ok _ =>
        rw [hcheck] at h
        dsimp only at h
        by_cases hblock : request.action = .blockRemoteAddress
        · rw [if_pos hblock] at h
          cases hcheck : checkBlockRequest request with
          | error error =>
              rw [hcheck] at h
              exact Or.inl ⟨error, (Option.some.inj h).symm⟩
          | ok found =>
              obtain ⟨pid, duration⟩ := found
              rw [hcheck] at h
              dsimp only at h
              by_cases hfresh : s.Fresh rollbackId
              · rw [if_pos hfresh] at h
                exact Or.inr (Or.inl ⟨hfresh, pid, duration, (Option.some.inj h).symm⟩)
              · simp [hfresh] at h
        · rw [if_neg hblock] at h
          by_cases hunblock : request.action = .unblockRemoteAddress
          · rw [if_pos hunblock] at h
            exact Or.inr (Or.inr (Option.some.inj h).symm)
          · simp [hunblock] at h
  · simp [hready] at h

theorem install_cases {tools : BlockTools} (h : s.install tools = some t) :
    ∃ block, s.request = .installing block ∧
      ((∃ error, t = s.answer (some block.rollbackId) (.error error)) ∨
        (validateRuleName (ruleName block.rollbackId) = .ok () ∧
          ∃ rule, t = { s with
            firewall := s.firewall.insert (ruleName block.rollbackId) rule
            request := .recording block })) := by
  unfold install at h
  split at h
  · rename_i block hphase
    refine ⟨block, hphase, ?_⟩
    split at h
    · rename_i error firewall hresult
      rw [blockRemoteAddress_error hresult] at h
      exact Or.inl ⟨_, (Option.some.inj h).symm⟩
    · rename_i firewall hresult
      obtain ⟨hname, rule, rfl⟩ := blockRemoteAddress_ok hresult
      exact Or.inr ⟨hname, rule, (Option.some.inj h).symm⟩
  · cases h

theorem record_cases {spawned : Bool} (h : s.record now fault spawned = some t) :
    ∃ block, s.request = .recording block ∧
      (((fault = none → s.rollbacks.lookup block.rollbackId ≠ none) ∧
          ∃ error, t = s.answer (some block.rollbackId) (.error error)) ∨
        t = { s with
          rollbacks := s.rollbacks.insert block.rollbackId ⟨block.clientSid, block.rollback now⟩
          expiries := s.expiries ++
            scheduleFirewallExpiry now spawned block.clientSid block.rollbackId
              (ruleName block.rollbackId) (block.duration.toNat * 60)
          request := .auditing block.request (block.outcome now) }) := by
  unfold record at h
  split at h
  · rename_i block hphase
    refine ⟨block, hphase, ?_⟩
    split at h
    · rename_i error rollbacks hresult
      rw [recordResponseRollback_error hresult] at h
      refine Or.inl ⟨?_, _, (Option.some.inj h).symm⟩
      rintro rfl hlookup
      have hrecorded : recordResponseRollback none block.clientSid (block.rollback now)
          s.rollbacks = _ := recordResponseRollback_none hlookup
      rw [hrecorded] at hresult
      cases hresult
    · rename_i rollbacks hresult
      obtain ⟨-, -, rfl⟩ := recordResponseRollback_ok hresult
      exact Or.inr (Option.some.inj h).symm
  · cases h

theorem read_cases (h : s.read fault = some t) :
    ∃ clientSid request, s.request = .reading clientSid request ∧
      ((∃ error, t = s.answer none (.error error)) ∨
        ∃ rollback, s.rollbacks.lookup request.rollbackId = some ⟨clientSid, rollback⟩ ∧
          rollback.action = blockAction ∧
          t = { s with
            request := .unblocking request rollback.target
              ⟨clientSid, rollback.id, rollback.payload, .removing⟩ }) := by
  unfold read at h
  split at h
  · rename_i clientSid request hphase
    refine ⟨clientSid, request, hphase, ?_⟩
    split at h
    · exact Or.inl ⟨_, (Option.some.inj h).symm⟩
    · rename_i found hfound
      split at h
      · exact Or.inl ⟨_, (Option.some.inj h).symm⟩
      · rename_i rollback hrollback
        obtain ⟨rfl, haction⟩ := Option.filter_eq_some_iff.mp hrollback
        exact Or.inr ⟨rollback, (responseRollback_ok hfound).1, by simpa using haction,
          (Option.some.inj h).symm⟩
  · cases h

theorem remove_cases (h : s.remove netsh = some t) :
    ∃ request target closing, s.request = .unblocking request target closing ∧
      closing.stage = .removing ∧
      ((∃ error, t = s.answer none (.error error)) ∨
        t = { s with
          firewall := s.firewall.erase closing.ruleName
          request := .unblocking request target { closing with stage := .marking } }) := by
  unfold remove at h
  split at h
  · rename_i request target closing hphase
    by_cases hstage : closing.stage = .removing
    · rw [if_pos hstage] at h
      refine ⟨request, target, closing, hphase, hstage, ?_⟩
      split at h
      · rename_i error firewall hresult
        rw [removeFirewallRule_error hresult] at h
        exact Or.inl ⟨_, (Option.some.inj h).symm⟩
      · rename_i firewall hresult
        obtain ⟨-, rfl⟩ := removeFirewallRule_ok hresult
        exact Or.inr (Option.some.inj h).symm
    · simp [hstage] at h
  · cases h

theorem close_cases {closing : Closing} {marked : Except StorageError Bool}
    (h : s.close now fault closing = (marked, t)) :
    (marked = .ok true ∧ ∃ row, s.rollbacks.lookup closing.rollbackId = some row ∧
        row.ownerSid = closing.ownerSid ∧ row.rollback.restoredAt = none ∧
        t = { s with
          rollbacks := s.rollbacks.insert closing.rollbackId (row.close now.unixTimestamp)
          closed := closing.rollbackId :: s.closed }) ∨
      marked ≠ .ok true ∧ t = s := by
  unfold close at h
  rcases hresult : markResponseRestored fault closing.ownerSid closing.rollbackId
    now.unixTimestamp s.rollbacks with ⟨found, rollbacks⟩
  rw [hresult] at h
  obtain ⟨rfl, rfl⟩ := Prod.mk.inj h
  by_cases htrue : found = .ok true
  · subst htrue
    obtain ⟨row, hlookup, howner, hrestored, rfl⟩ := markResponseRestored_true hresult
    exact Or.inl ⟨rfl, row, hlookup, howner, hrestored, by rw [if_pos rfl]⟩
  · have hrows := markResponseRestored_ne_true (by rw [hresult]; exact htrue)
    rw [hresult] at hrows
    obtain rfl : rollbacks = s.rollbacks := hrows
    exact Or.inr ⟨htrue, by rw [if_neg htrue]⟩

/-- Neither the rules nor the actors change. -/
structure SameActors (s t : BlockState) : Prop where
  firewall : t.firewall = s.firewall
  running : t.running = s.running
  request : t.request = s.request
  expiries : t.expiries = s.expiries

/-- Closing a record touches nothing else. -/
theorem sameActors_of_close {closing : Closing} {marked : Except StorageError Bool}
    (h : s.close now fault closing = (marked, t)) : SameActors s t := by
  rcases close_cases h with ⟨-, row, -, -, -, rfl⟩ | ⟨-, rfl⟩
  · exact ⟨rfl, rfl, rfl, rfl⟩
  · exact ⟨rfl, rfl, rfl, rfl⟩

theorem mark_cases (h : s.mark now fault = some t) :
    ∃ request target closing marked after, s.request = .unblocking request target closing ∧
      closing.stage = .marking ∧ s.close now fault closing = (marked, after) ∧
      ((∃ error, marked = .error error ∧ t = after.answer none
          (.error (storageApiError "Complete firewall rollback" error))) ∨
        ∃ found, marked = .ok found ∧
          t = { after with request := .auditing request (unblockOutcome target) }) := by
  unfold mark at h
  split at h
  · rename_i request target closing hphase
    by_cases hstage : closing.stage = .marking
    · rw [if_pos hstage] at h
      split at h
      · rename_i error after hclose
        exact ⟨request, target, closing, _, after, hphase, hstage, hclose,
          Or.inl ⟨error, rfl, (Option.some.inj h).symm⟩⟩
      · rename_i found after hclose
        exact ⟨request, target, closing, _, after, hphase, hstage, hclose,
          Or.inr ⟨found, rfl, (Option.some.inj h).symm⟩⟩
    · simp [hstage] at h
  · cases h

theorem audit_cases {auditEventId : Except StorageError ℤ} (h : s.audit auditEventId = some t) :
    ∃ request outcome, s.request = .auditing request outcome ∧
      ((∃ id, auditEventId = .ok id ∧
          t = s.answer outcome.rollbackId (.ok (outcome.result request.action id))) ∨
        ∃ error, auditEventId = .error error ∧
          t = s.answer outcome.rollbackId
            (.error (storageApiError "Audit response action" error))) := by
  unfold audit at h
  split at h
  · rename_i request outcome hphase
    refine ⟨request, outcome, hphase, ?_⟩
    cases auditEventId with
    | error error => exact Or.inr ⟨error, rfl, (Option.some.inj h).symm⟩
    | ok id => exact Or.inl ⟨id, rfl, (Option.some.inj h).symm⟩
  · cases h

theorem wake_cases (h : s.wake thread now fault = some t) :
    ∃ expiry ∈ s.expiries, s.expiries[thread]? = some expiry ∧
      expiry.closing.stage = .waiting ∧
      (t = s.setThread thread expiry .removing ∨ t = s.setThread thread expiry .finished) := by
  unfold wake at h
  split at h
  · cases h
  · rename_i expiry hexpiry
    by_cases hstage : expiry.closing.stage = .waiting ∧ expiry.wakesAt ≤ now.instant
    · rw [if_pos hstage] at h
      refine ⟨expiry, List.mem_of_getElem? hexpiry, hexpiry, hstage.1, ?_⟩
      split at h
      · exact Or.inl (Option.some.inj h).symm
      · exact Or.inr (Option.some.inj h).symm
    · simp [hstage] at h

theorem expireRemove_cases (h : s.expireRemove thread netsh = some t) :
    ∃ expiry ∈ s.expiries, s.expiries[thread]? = some expiry ∧
      expiry.closing.stage = .removing ∧
      (t = s.setThread thread expiry .finished ∨
        t = { s with firewall := s.firewall.erase expiry.closing.ruleName }.setThread thread expiry
          .marking) := by
  unfold expireRemove at h
  split at h
  · cases h
  · rename_i expiry hexpiry
    by_cases hstage : expiry.closing.stage = .removing
    · rw [if_pos hstage] at h
      refine ⟨expiry, List.mem_of_getElem? hexpiry, hexpiry, hstage, ?_⟩
      split at h
      · rename_i error firewall hresult
        rw [removeFirewallRule_error hresult] at h
        exact Or.inl (Option.some.inj h).symm
      · rename_i firewall hresult
        obtain ⟨-, rfl⟩ := removeFirewallRule_ok hresult
        exact Or.inr (Option.some.inj h).symm
    · simp [hstage] at h

theorem expireMark_cases (h : s.expireMark thread now fault = some t) :
    ∃ expiry ∈ s.expiries, s.expiries[thread]? = some expiry ∧ expiry.closing.stage = .marking ∧
      ∃ marked after, s.close now fault expiry.closing = (marked, after) ∧
        t = after.setThread thread expiry .finished := by
  unfold expireMark at h
  split at h
  · cases h
  · rename_i expiry hexpiry
    by_cases hstage : expiry.closing.stage = .marking
    · rw [if_pos hstage] at h
      exact ⟨expiry, List.mem_of_getElem? hexpiry, hexpiry, hstage, _, _, rfl,
        (Option.some.inj h).symm⟩
    · simp [hstage] at h

end cases

end BlockState

end OpenGuard.Service
