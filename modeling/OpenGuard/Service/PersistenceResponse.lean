import OpenGuard.Lib.JsonText
import OpenGuard.Service.Inventory
import OpenGuard.Storage.Rollback
import OpenGuard.Windows.PersistenceControl

/-!
# Disabling and restoring startup registrations

The response actions on startup registrations. What was disabled is kept in a rollback record: the
category, the location and the state as the inventory shows it, from which the restore makes the
start type.

* `disablePersistence`, `restorePersistence`: the actions.
* `PersistenceAction`: all that can happen beside them; `persistenceStep`: the machine.
* `RollbackKept`: what becomes of a record; `rollbackKept_step`, `rollbackKept_run`.
* `restore_undoes_iff`: over every run, a restore brings back what was there just when that was what
  the stored state stands for, and a rollback works once.
-/

namespace OpenGuard.Service

open OpenGuard.Lib OpenGuard.Domain OpenGuard.Storage OpenGuard.Windows

/-! ## The actions -/

/-- The inventories, the rollback records and the start configuration of the machine. -/
structure PersistenceWorld where
  inventory : InventoryState
  rollbacks : Rollbacks
  system : StartSystem

/-- The `action` of the record of a registration that was disabled. -/
def disableAction : String := "disable_persistence"

/-- What the environment chooses for a disable: the collection, if one is made, the outcomes of the
calls, the clock and the id that is drawn. -/
structure DisableChoice where
  collection : InventoryRequest
  read : Fault
  tools : StartTools
  record : Fault
  now : Clock
  rollbackId : String

/-- What the environment chooses for a restore. -/
structure RestoreChoice where
  read : Fault
  tools : StartTools
  mark : Fault
  now : Clock

/-- The payload of the record.
Source: `main.rs`, `ServiceState::execute_response_inner` -/
def disablePayload (item : PersistenceItem) : Json :=
  .object [("category", .string item.category), ("location", .string item.location),
    ("previous_state", .string item.state)]

/-- The record with which a disable can be undone.
Source: `main.rs`, `ServiceState::execute_response_inner` -/
def disableRollback (choice : DisableChoice) (item : PersistenceItem) : ResponseRollback where
  id := choice.rollbackId
  action := disableAction
  target := item.name
  payload := (disablePayload item).render
  createdAt := choice.now.unixTimestamp
  expiresAt := none
  restoredAt := none

/-- The item may be disabled.
Source: `main.rs`, `ServiceState::execute_response_inner` -/
def checkDisable (item : PersistenceItem) : Except ApiError Unit :=
  if item.responseCapability ≠ "disable_restore" then
    .error (invalidResponse "This persistence type is report-only for safety")
  else if Severity.medium ≤ item.risk then .ok ()
  else .error (invalidResponse ("OpenGuard only enables automated startup disable for entries " ++
    "with explainable review signals"))

/-- The client's inventory is not kept any more. -/
def InventoryState.forget (clientSid : String) (state : InventoryState) : InventoryState :=
  { state with cache := state.cache.erase clientSid }

section actions

-- the first 12 bytes of the SHA-256 of a text, as hexadecimal, and `serde_json::from_str`
variable (digest : String → String) (parse : String → Option Json)

/-- Source: `main.rs`, `ServiceState::execute_response_inner` -/
def disablePersistence (clientSid persistenceId : String) (choice : DisableChoice)
    (world : PersistenceWorld) : Except ApiError ResponseOutcome × PersistenceWorld :=
  match persistenceInventory digest clientSid { choice.collection with refresh := false }
      world.inventory with
  | (.error error, inventory) => (.error error, { world with inventory })
  | (.ok _, inventory) =>
      let world := { world with inventory }
      match persistenceItem choice.read clientSid persistenceId inventory.tables.1 with
      | .error error => (.error (storageApiError "Read persistence target" error), world)
      | .ok none => (.error (invalidResponse "Active persistence target was not found"), world)
      | .ok (some item) =>
          match checkDisable item with
          | .error error => (.error error, world)
          | .ok () =>
              match setPersistenceEnabled choice.tools item.category item.location false none
                  world.system with
              | (.error error, system) => (.error (responseApiError error), { world with system })
              | (.ok (), system) =>
                  match recordResponseRollback choice.record clientSid (disableRollback choice item)
                      world.rollbacks with
                  | (.error error, rollbacks) =>
                      (.error (storageApiError "Record persistence rollback" error),
                        { world with system, rollbacks })
                  | (.ok (), rollbacks) =>
                      (.ok ⟨item.name, "Disabled startup registration; rollback is available",
                          some choice.rollbackId, none⟩,
                        ⟨inventory.forget clientSid, rollbacks, system⟩)

/-- A text of the payload, empty if it is not there. -/
def payloadText (payload : Json) (name : String) : String :=
  ((payload.get name).bind jsonStr).getD ""

/-- Source: `main.rs`, `ServiceState::execute_response_inner` -/
def restorePersistence (clientSid rollbackId : String) (choice : RestoreChoice)
    (world : PersistenceWorld) : Except ApiError ResponseOutcome × PersistenceWorld :=
  match responseRollback choice.read clientSid rollbackId world.rollbacks with
  | .error error => (.error (storageApiError "Read persistence rollback" error), world)
  | .ok found =>
      match found.filter (·.action == disableAction) with
      | none =>
          (.error (invalidResponse "Active persistence rollback was not found"), world)
      | some rollback =>
          match parse rollback.payload with
          | none => (.error (invalidResponse "Stored rollback data is invalid"), world)
          | some payload =>
              match setPersistenceEnabled choice.tools (payloadText payload "category")
                  (payloadText payload "location") true
                  ((payload.get "previous_state").bind jsonStr) world.system with
              | (.error error, system) => (.error (responseApiError error), { world with system })
              | (.ok (), system) =>
                  match markResponseRestored choice.mark clientSid rollback.id
                      choice.now.unixTimestamp world.rollbacks with
                  | (.error error, rollbacks) =>
                      (.error (storageApiError "Complete persistence rollback" error),
                        { world with system, rollbacks })
                  | (.ok _, rollbacks) =>
                      (.ok ⟨rollback.target, "Restored startup registration", none, none⟩,
                        ⟨world.inventory.forget clientSid, rollbacks, system⟩)

/-! ## The machine -/

/-- What can happen: the two actions, a request for the inventory, a restart, a change from outside,
and the records of other response actions. -/
inductive PersistenceAction where
  | disable (clientSid persistenceId : String) (choice : DisableChoice)
  | restore (clientSid rollbackId : String) (choice : RestoreChoice)
  | collect (clientSid : String) (request : InventoryRequest)
  | restart
  | change (system : StartSystem)
  | record (ownerSid : String) (rollback : ResponseRollback) (fault : Fault)
  | close (ownerSid rollbackId restoredAt : String) (fault : Fault)

/-- The world after an action. -/
def persistenceStep (world : PersistenceWorld) : PersistenceAction → PersistenceWorld
  | .disable clientSid persistenceId choice =>
      (disablePersistence digest clientSid persistenceId choice world).2
  | .restore clientSid rollbackId choice =>
      (restorePersistence parse clientSid rollbackId choice world).2
  | .collect clientSid request =>
      { world with
        inventory := (persistenceInventory digest clientSid request world.inventory).2 }
  | .restart => { world with inventory := { world.inventory with cache := ∅ } }
  | .change system => { world with system }
  | .record ownerSid rollback fault =>
      { world with rollbacks := (recordResponseRollback fault ownerSid rollback world.rollbacks).2 }
  | .close ownerSid rollbackId restoredAt fault =>
      { world with
        rollbacks := (markResponseRestored fault ownerSid rollbackId restoredAt world.rollbacks).2 }

/-- The world after some actions. -/
def persistenceRun (world : PersistenceWorld) (actions : List PersistenceAction) :
    PersistenceWorld :=
  actions.foldl (persistenceStep digest parse) world

end actions

/-! ## What the actions do -/

section cases

variable (digest : String → String) (parse : String → Option Json) (clientSid : String)
  (world : PersistenceWorld)

/-- The item that a disable reads. -/
def disabledItem (persistenceId : String) (choice : DisableChoice) :
    Except StorageError (Option PersistenceItem) :=
  persistenceItem choice.read clientSid persistenceId
    (persistenceInventory digest clientSid { choice.collection with refresh := false }
      world.inventory).2.tables.1

/-- A disable stops before it changes anything, or it changes the start of the item that it read and
then its record is stored or not. -/
theorem disable_cases (persistenceId : String) (choice : DisableChoice) :
    ((∃ error, (disablePersistence digest clientSid persistenceId choice world).1 = .error error) ∧
      (disablePersistence digest clientSid persistenceId choice world).2.system = world.system ∧
      (disablePersistence digest clientSid persistenceId choice world).2.rollbacks =
        world.rollbacks) ∨
    ∃ item, disabledItem digest clientSid world persistenceId choice = .ok (some item) ∧
      setPersistenceEnabled choice.tools item.category item.location false none world.system =
        (.ok (), (disablePersistence digest clientSid persistenceId choice world).2.system) ∧
      ((∃ error, (disablePersistence digest clientSid persistenceId choice world).1 =
            .error error) ∧
          (disablePersistence digest clientSid persistenceId choice world).2.rollbacks =
            world.rollbacks ∨
        (disablePersistence digest clientSid persistenceId choice world).1 =
            .ok ⟨item.name, "Disabled startup registration; rollback is available",
              some choice.rollbackId, none⟩ ∧
          recordResponseRollback choice.record clientSid (disableRollback choice item)
              world.rollbacks =
            (.ok (),
              (disablePersistence digest clientSid persistenceId choice world).2.rollbacks)) := by
  unfold disabledItem disablePersistence
  rcases persistenceInventory digest clientSid { choice.collection with refresh := false }
    world.inventory with ⟨error | inventory, state⟩
  · exact .inl ⟨⟨_, rfl⟩, rfl, rfl⟩
  dsimp only
  rcases persistenceItem choice.read clientSid persistenceId state.tables.1 with
    error | _ | item
  · exact .inl ⟨⟨_, rfl⟩, rfl, rfl⟩
  · exact .inl ⟨⟨_, rfl⟩, rfl, rfl⟩
  dsimp only
  rcases checkDisable item with error | _
  · exact .inl ⟨⟨_, rfl⟩, rfl, rfl⟩
  dsimp only
  rcases hset : setPersistenceEnabled choice.tools item.category item.location false none
    world.system with ⟨error | _, system⟩
  · exact .inl ⟨⟨_, rfl⟩, setPersistenceEnabled_error hset, rfl⟩
  dsimp only
  rcases hrecord : recordResponseRollback choice.record clientSid (disableRollback choice item)
    world.rollbacks with ⟨error | _, rollbacks⟩
  · exact .inr ⟨item, rfl, hset, .inl ⟨⟨_, rfl⟩, recordResponseRollback_error hrecord⟩⟩
  · exact .inr ⟨item, rfl, hset, .inr ⟨rfl, hrecord⟩⟩

/-- A restore stops before it changes anything, or it changes the start of what the record that it
read names, and then it tries to close the record. -/
theorem restore_cases (rollbackId : String) (choice : RestoreChoice) :
    ((∃ error, (restorePersistence parse clientSid rollbackId choice world).1 = .error error) ∧
      (restorePersistence parse clientSid rollbackId choice world).2.system = world.system ∧
      (restorePersistence parse clientSid rollbackId choice world).2.rollbacks = world.rollbacks) ∨
    ∃ rollback payload,
      responseRollback choice.read clientSid rollbackId world.rollbacks = .ok (some rollback) ∧
      parse rollback.payload = some payload ∧
      setPersistenceEnabled choice.tools (payloadText payload "category")
          (payloadText payload "location") true ((payload.get "previous_state").bind jsonStr)
          world.system =
        (.ok (), (restorePersistence parse clientSid rollbackId choice world).2.system) ∧
      (restorePersistence parse clientSid rollbackId choice world).2.rollbacks =
        (markResponseRestored choice.mark clientSid rollback.id choice.now.unixTimestamp
          world.rollbacks).2 ∧
      ((∃ outcome, (restorePersistence parse clientSid rollbackId choice world).1 = .ok outcome) →
        ∃ marked, (markResponseRestored choice.mark clientSid rollback.id
          choice.now.unixTimestamp world.rollbacks).1 = .ok marked) := by
  unfold restorePersistence
  rcases responseRollback choice.read clientSid rollbackId world.rollbacks with error | found
  · exact .inl ⟨⟨_, rfl⟩, rfl, rfl⟩
  dsimp only
  split
  · exact .inl ⟨⟨_, rfl⟩, rfl, rfl⟩
  rename_i rollback hfound
  have hsome := (Option.filter_eq_some_iff.mp hfound).1
  rcases hparse : parse rollback.payload with _ | payload
  · exact .inl ⟨⟨_, rfl⟩, rfl, rfl⟩
  dsimp only
  rcases hset : setPersistenceEnabled choice.tools (payloadText payload "category")
    (payloadText payload "location") true ((payload.get "previous_state").bind jsonStr)
    world.system with ⟨error | _, system⟩
  · exact .inl ⟨⟨_, rfl⟩, setPersistenceEnabled_error hset, rfl⟩
  dsimp only
  rcases hmark : markResponseRestored choice.mark clientSid rollback.id choice.now.unixTimestamp
    world.rollbacks with ⟨error | marked, rollbacks⟩
  · refine .inr ⟨rollback, payload, by rw [hsome], hparse, hset, by rw [hmark], ?_⟩
    rintro ⟨outcome, hok⟩
    cases hok
  · refine .inr ⟨rollback, payload, by rw [hsome], hparse, hset, by rw [hmark], fun _ => ?_⟩
    exact ⟨marked, by rw [hmark]⟩

end cases

/-! ## The record -/

/-- A row of the records has only been closed since. -/
def RollbackKept (row : OwnedResponseRollback) (rollbackId : String)
    (rollbacks : Rollbacks) : Prop :=
  ∃ now, rollbacks.lookup rollbackId = some now ∧ now.rollback.id = row.rollback.id ∧
    now.rollback.payload = row.rollback.payload ∧
    (row.rollback.restoredAt ≠ none → now.rollback.restoredAt ≠ none)

section record

variable {digest : String → String} {parse : String → Option Json} {row : OwnedResponseRollback}
  {rollbackId : String} {world : PersistenceWorld} {rollbacks : Rollbacks}

theorem RollbackKept.of_lookup (h : rollbacks.lookup rollbackId = some row) :
    RollbackKept row rollbackId rollbacks := ⟨row, h, rfl, rfl, id⟩

theorem RollbackKept.record (h : RollbackKept row rollbackId rollbacks) (fault : Fault)
    (ownerSid : String) (rollback : ResponseRollback) :
    RollbackKept row rollbackId (recordResponseRollback fault ownerSid rollback rollbacks).2 := by
  obtain ⟨now, hlookup, hkept⟩ := h
  exact ⟨now, lookup_recordResponseRollback hlookup, hkept⟩

theorem RollbackKept.mark {fault : Fault} {ownerSid other restoredAt : String}
    (h : RollbackKept row rollbackId rollbacks) :
    RollbackKept row rollbackId
      (markResponseRestored fault ownerSid other restoredAt rollbacks).2 := by
  obtain ⟨now, hlookup, hid, hpayload, hclosed⟩ := h
  have hmarked : ∃ next,
      (markResponseRestored fault ownerSid other restoredAt rollbacks).2.lookup rollbackId =
        some next ∧ (next = now ∨ next = now.close restoredAt) :=
    lookup_markResponseRestored hlookup
  obtain ⟨next, hnext, rfl | rfl⟩ := hmarked
  · exact ⟨next, hnext, hid, hpayload, hclosed⟩
  · exact ⟨_, hnext, hid, hpayload, fun _ => nofun⟩

/-- **Every action** keeps the record. -/
theorem rollbackKept_step (action : PersistenceAction)
    (h : RollbackKept row rollbackId world.rollbacks) :
    RollbackKept row rollbackId (persistenceStep digest parse world action).rollbacks := by
  cases action with
  | disable clientSid persistenceId choice =>
      rcases disable_cases digest clientSid world persistenceId choice with
        ⟨-, -, hsame⟩ | ⟨item, -, -, ⟨-, hsame⟩ | ⟨-, hrecord⟩⟩
      · exact (congrArg (RollbackKept row rollbackId) hsame).mpr h
      · exact (congrArg (RollbackKept row rollbackId) hsame).mpr h
      · have hkept := h.record choice.record clientSid (disableRollback choice item)
        rw [hrecord] at hkept
        exact hkept
  | restore clientSid rollbackId choice =>
      rcases restore_cases parse clientSid world rollbackId choice with
        ⟨-, -, hsame⟩ | ⟨rollback, payload, -, -, -, hmark, -⟩
      · exact (congrArg (RollbackKept row _) hsame).mpr h
      · exact (congrArg (RollbackKept row _) hmark).mpr h.mark
  | collect clientSid request => exact h
  | restart => exact h
  | change system => exact h
  | record ownerSid rollback fault => exact h.record fault ownerSid rollback
  | close ownerSid other restoredAt fault => exact h.mark

theorem rollbackKept_run (actions : List PersistenceAction)
    (h : RollbackKept row rollbackId world.rollbacks) :
    RollbackKept row rollbackId (persistenceRun digest parse world actions).rollbacks := by
  induction actions generalizing world with
  | nil => exact h
  | cons action actions ih => exact ih (rollbackKept_step action h)

/-- A record that is closed cannot be restored, by anyone. -/
theorem restore_of_closed {now : OwnedResponseRollback}
    (hlookup : world.rollbacks.lookup rollbackId = some now)
    (hclosed : now.rollback.restoredAt ≠ none) (clientSid : String) (choice : RestoreChoice) :
    ∃ error, (restorePersistence parse clientSid rollbackId choice world).1 = .error error := by
  rcases restore_cases parse clientSid world rollbackId choice with
    ⟨herror, -⟩ | ⟨rollback, payload, hread, -⟩
  · exact herror
  · obtain ⟨hrow, hopen⟩ := responseRollback_ok hread
    rw [hlookup] at hrow
    cases Option.some.inj hrow
    exact absurd hopen hclosed

end record

/-! ## Other registrations -/

section others

variable (digest : String → String) (parse : String → Option Json) (target : StartTarget)

/-- The action is about other registrations: a disable reads an item of another one, a restore a
record of another one, and a change from outside is one to others. -/
def OnOthers (world : PersistenceWorld) : PersistenceAction → Prop
  | .disable clientSid persistenceId choice => ∀ item,
      disabledItem digest clientSid world persistenceId choice = .ok (some item) →
        startTarget item.category item.location ≠ .ok target
  | .restore clientSid rollbackId choice => ∀ rollback payload,
      responseRollback choice.read clientSid rollbackId world.rollbacks = .ok (some rollback) →
      parse rollback.payload = some payload →
        startTarget (payloadText payload "category") (payloadText payload "location") ≠ .ok target
  | .change system => system.configuration target = world.system.configuration target
  | _ => True

/-- All actions of a run are about other registrations. -/
def AllOnOthers : PersistenceWorld → List PersistenceAction → Prop
  | _, [] => True
  | world, action :: actions =>
      OnOthers digest parse target world action ∧
        AllOnOthers (persistenceStep digest parse world action) actions

variable {digest parse target} {world : PersistenceWorld}

/-- **An action on others** leaves the configuration. -/
theorem configuration_step {action : PersistenceAction}
    (h : OnOthers digest parse target world action) :
    (persistenceStep digest parse world action).system.configuration target =
      world.system.configuration target := by
  cases action with
  | disable clientSid persistenceId choice =>
      rcases disable_cases digest clientSid world persistenceId choice with
        ⟨-, hsame, -⟩ | ⟨item, hitem, hset, -⟩
      · exact congrArg (StartSystem.configuration · target) hsame
      · obtain ⟨changed, -, htarget, -, -, hothers⟩ := setPersistenceEnabled_ok hset
        refine hothers target fun hsame => h item hitem ?_
        rw [hsame]
        exact htarget
  | restore clientSid rollbackId choice =>
      rcases restore_cases parse clientSid world rollbackId choice with
        ⟨-, hsame, -⟩ | ⟨rollback, payload, hread, hparse, hset, -⟩
      · exact congrArg (StartSystem.configuration · target) hsame
      · obtain ⟨changed, -, htarget, -, -, hothers⟩ := setPersistenceEnabled_ok hset
        refine hothers target fun hsame => h rollback payload hread hparse ?_
        rw [hsame]
        exact htarget
  | change system => exact h
  | collect clientSid request => rfl
  | restart => rfl
  | record ownerSid rollback fault => rfl
  | close ownerSid rollbackId restoredAt fault => rfl

theorem configuration_run {actions : List PersistenceAction}
    (h : AllOnOthers digest parse target world actions) :
    (persistenceRun digest parse world actions).system.configuration target =
      world.system.configuration target := by
  induction actions generalizing world with
  | nil => rfl
  | cons action actions ih => exact (ih h.2).trans (configuration_step h.1)

end others

/-! ## There and back -/

section back

variable {digest : String → String} {parse : String → Option Json} {clientSid : String}
  {world : PersistenceWorld}

/-- The rollback cannot be used in any later world. -/
def UsedUp (digest : String → String) (parse : String → Option Json) (rollbackId : String)
    (world : PersistenceWorld) : Prop :=
  ∀ actions clientSid choice, ∃ error,
    (restorePersistence parse clientSid rollbackId choice
      (persistenceRun digest parse world actions)).1 = .error error

/-- A restore that succeeds uses the rollback up. -/
theorem usedUp_of_restore {rollbackId : String} {choice : RestoreChoice} {outcome : ResponseOutcome}
    (h : (restorePersistence parse clientSid rollbackId choice world).1 = .ok outcome)
    (hid : ∀ row, world.rollbacks.lookup rollbackId = some row → row.rollback.id = rollbackId) :
    UsedUp digest parse rollbackId
      (restorePersistence parse clientSid rollbackId choice world).2 := by
  rcases restore_cases parse clientSid world rollbackId choice with
    ⟨⟨error, herror⟩, -⟩ | ⟨rollback, payload, hread, -, -, hmark, hmarked⟩
  · rw [h] at herror
    cases herror
  obtain ⟨hrow, hopen⟩ := responseRollback_ok hread
  have hsame : rollback.id = rollbackId := hid _ hrow
  obtain ⟨marked, hmarked⟩ := hmarked ⟨outcome, h⟩
  rw [hsame] at hmark hmarked
  have hclosed : (markResponseRestored choice.mark clientSid rollbackId choice.now.unixTimestamp
      world.rollbacks).2.lookup rollbackId =
        some (OwnedResponseRollback.close choice.now.unixTimestamp ⟨clientSid, rollback⟩) := by
    cases hfault : choice.mark with
    | some error =>
        rw [hfault] at hmarked
        cases hmarked
    | none =>
        have hnone : markResponseRestored none clientSid rollbackId choice.now.unixTimestamp
            world.rollbacks = _ := markResponseRestored_none hrow hopen
        rw [hnone]
        exact AList.lookup_insert _
  intro actions other later
  obtain ⟨now, hnow, -, -, hrestored⟩ : RollbackKept _ rollbackId
      (persistenceRun digest parse _ actions).rollbacks :=
    rollbackKept_run actions (RollbackKept.of_lookup (hmark ▸ hclosed))
  exact restore_of_closed hnow (hrestored nofun) other later

/-- The texts of a payload are those of the item. -/
theorem payload_disablePayload (item : PersistenceItem) :
    payloadText (disablePayload item) "category" = item.category ∧
      payloadText (disablePayload item) "location" = item.location ∧
      ((disablePayload item).get "previous_state").bind jsonStr = some item.state :=
  ⟨rfl, rfl, rfl⟩

/-- **There and back**: after a disable, any actions on other registrations and a restore with the
rollback, the start configuration is what it was, and the rollback is used up, just when that is
what the state of the item stands for. -/
theorem restore_undoes_iff
    {persistenceId rollbackId : String} {off : DisableChoice} {on : RestoreChoice}
    {outcome again : ResponseOutcome} {disabled restored : PersistenceWorld}
    {item : PersistenceItem} {target : StartTarget} {before : StartConfiguration}
    {actions : List PersistenceAction}
    (hdisable :
      disablePersistence digest clientSid persistenceId off world = (.ok outcome, disabled))
    (hid : outcome.rollbackId = some rollbackId)
    (hitem : disabledItem digest clientSid world persistenceId off = .ok (some item))
    (htarget : startTarget item.category item.location = .ok target)
    (hbefore : world.system.configuration target = some before)
    (hparse : parse (disablePayload item).render = some (disablePayload item))
    (hothers : AllOnOthers digest parse target disabled actions)
    (hrestore : restorePersistence parse clientSid rollbackId on
      (persistenceRun digest parse disabled actions) = (.ok again, restored)) :
    (restored.system.configuration target = some before ∧
        UsedUp digest parse rollbackId restored) ↔
      before.Restorable off.tools on.tools item.state := by
  -- the disable
  rcases disable_cases digest clientSid world persistenceId off with
    ⟨⟨error, herror⟩, -⟩ | ⟨read, hread, hset, ⟨⟨error, herror⟩, -⟩ | ⟨hok, hrecord⟩⟩
  · rw [hdisable] at herror
    cases herror
  · rw [hdisable] at herror
    cases herror
  rw [hdisable] at hset hok hrecord
  rw [hitem] at hread
  cases Option.some.inj (Except.ok.inj hread)
  obtain ⟨-, -, hrollbacks⟩ := recordResponseRollback_ok hrecord
  have hsame : off.rollbackId = rollbackId := by
    rw [Except.ok.inj hok] at hid
    exact Option.some.inj hid
  obtain ⟨found, was, hfound, hwas, hchanged, -⟩ := setPersistenceEnabled_ok hset
  rw [htarget] at hfound
  cases Except.ok.inj hfound
  rw [hbefore] at hwas
  cases Option.some.inj hwas
  -- the record and the configuration before the restore
  have hrow : disabled.rollbacks.lookup rollbackId =
      some ⟨clientSid, disableRollback off item⟩ := by
    rw [hrollbacks, ← hsame]
    exact AList.lookup_insert _
  obtain ⟨now, hnow, hnowId, hpayload, -⟩ : RollbackKept ⟨clientSid, disableRollback off item⟩
      rollbackId (persistenceRun digest parse disabled actions).rollbacks :=
    rollbackKept_run actions (RollbackKept.of_lookup hrow)
  -- the restore
  have hused : UsedUp digest parse rollbackId restored := by
    have hused : UsedUp digest parse rollbackId (restorePersistence parse clientSid rollbackId on
        (persistenceRun digest parse disabled actions)).2 :=
      usedUp_of_restore (congrArg Prod.fst hrestore) fun row hother => ?_
    · rwa [hrestore] at hused
    · rw [hnow] at hother
      rw [← Option.some.inj hother, hnowId]
      exact hsame
  rcases restore_cases parse clientSid (persistenceRun digest parse disabled actions) rollbackId on
    with ⟨⟨error, herror⟩, -⟩ | ⟨rollback, payload, hread, hparsed, hset, -⟩
  · rw [hrestore] at herror
    cases herror
  obtain ⟨hlookup, -⟩ := responseRollback_ok hread
  rw [hnow] at hlookup
  cases Option.some.inj hlookup
  have hdocument : payload = disablePayload item := by
    rw [hpayload] at hparsed
    exact Option.some.inj (hparsed.symm.trans hparse)
  obtain ⟨hcategory, hlocation, hstate⟩ := payload_disablePayload item
  rw [hdocument, hcategory, hlocation, hstate, hrestore] at hset
  obtain ⟨found, was, hfound, hwas, hback, -⟩ := setPersistenceEnabled_ok hset
  rw [htarget] at hfound
  cases Except.ok.inj hfound
  rw [configuration_run hothers, hchanged] at hwas
  cases Option.some.inj hwas
  rw [hback, Option.some_inj, restorable_iff]
  exact and_iff_left hused

end back

/-! ## A service and a task -/

/-- A service that starts with the system, from a folder for temporary files. -/
def temporaryService : PersistenceItem where
  id := "service-1"
  category := "service"
  name := "Updater"
  command := "C:\\Temp\\updater.exe"
  location := "HKLM\\SYSTEM\\CurrentControlSet\\Services\\Updater"
  state := "automatic"
  risk := .medium
  evidence := ["Startup command references a user-writable location"]
  detectedAt := "unix:1"
  responseCapability := "disable_restore"

/-- A task with the same program, which is disabled. -/
def disabledTask : PersistenceItem :=
  { temporaryService with
    id := "scheduled_task-1"
    category := "scheduled_task"
    location := "\\Updater"
    state := "Disabled" }

/-- An item is stored for a client, whose inventory is in the cache. -/
def storedWorld (item : PersistenceItem) : PersistenceWorld where
  inventory :=
    ⟨((∅ : PersistenceItems).insert ("S-1", item.id) (upsertedRow "unix:1" item none), .empty),
      (∅ : Table String PersistenceInventory).insert "S-1" ⟨[item], "unix:1", []⟩⟩
  rollbacks := ∅
  system := ⟨(∅ : Table String ServiceStart).insert "Updater" ⟨some 2, false⟩,
    (∅ : Table String Bool).insert "\\Updater" false⟩

/-- Tools that work, and leave a delay as it is. -/
def workingTools : StartTools := ⟨none, fun _ delayed => delayed⟩

/-- A collection that finds nothing. -/
def bareRequest : InventoryRequest where
  refresh := true
  userProfile := ""
  localAppData := ""
  roamingAppData := ""
  machine := bareMachine
  observedAt := "unix:1"
  fault := none
  order := .stored

def quietDisable : DisableChoice where
  collection := bareRequest
  read := none
  tools := workingTools
  record := none
  now := ⟨0, 1⟩
  rollbackId := "r-1"

def quietRestore : RestoreChoice := ⟨none, workingTools, none, ⟨0, 2⟩⟩

/-- The worlds after the item is disabled, and after it is restored. -/
def afterDisable (item : PersistenceItem) : PersistenceWorld :=
  (disablePersistence id "S-1" item.id quietDisable (storedWorld item)).2

def afterRestore (item : PersistenceItem) : PersistenceWorld :=
  (restorePersistence (fun _ => some (disablePayload item)) "S-1" "r-1" quietRestore
    (afterDisable item)).2

/-- The disable and the restore of an item that was disabled. -/
theorem disable_temporaryService : disablePersistence id "S-1" temporaryService.id quietDisable
    (storedWorld temporaryService) =
      (.ok ⟨"Updater", "Disabled startup registration; rollback is available", some "r-1", none⟩,
        afterDisable temporaryService) :=
  Prod.ext rfl rfl

theorem restore_temporaryService :
    restorePersistence (fun _ => some (disablePayload temporaryService))
    "S-1" "r-1" quietRestore
    (persistenceRun id (fun _ => some (disablePayload temporaryService))
      (afterDisable temporaryService) []) =
      (.ok ⟨"Updater", "Restored startup registration", none, none⟩,
        afterRestore temporaryService) :=
  Prod.ext rfl rfl

theorem restore_undoes_service :
    ((afterRestore temporaryService).system.configuration (.service "Updater") =
          some (.service ⟨some 2, false⟩) ∧
        UsedUp id (fun _ => some (disablePayload temporaryService)) "r-1"
          (afterRestore temporaryService)) ↔
      (StartConfiguration.service ⟨some 2, false⟩).Restorable workingTools workingTools
        "automatic" := by
  have hitem : disabledItem id "S-1" (storedWorld temporaryService) temporaryService.id
      quietDisable = .ok (some temporaryService) := rfl
  have htarget : startTarget temporaryService.category temporaryService.location =
      .ok (.service "Updater") := rfl
  have hothers : AllOnOthers id (fun _ => some (disablePayload temporaryService))
      (.service "Updater") (afterDisable temporaryService) [] := trivial
  exact restore_undoes_iff disable_temporaryService rfl hitem htarget rfl rfl hothers
    restore_temporaryService

/-- **A task that was already disabled** is enabled when its disable is undone. -/
theorem restore_enables_task : ∃ outcome again,
    disablePersistence id "S-1" disabledTask.id quietDisable (storedWorld disabledTask) =
        (.ok outcome, afterDisable disabledTask) ∧
      outcome.rollbackId = some "r-1" ∧
      restorePersistence (fun _ => some (disablePayload disabledTask)) "S-1" "r-1" quietRestore
        (afterDisable disabledTask) = (.ok again, afterRestore disabledTask) ∧
      (storedWorld disabledTask).system.configuration (.task "\\Updater") = some (.task false) ∧
      (afterRestore disabledTask).system.configuration (.task "\\Updater") = some (.task true) :=
  ⟨⟨"Updater", "Disabled startup registration; rollback is available", some "r-1", none⟩,
    ⟨"Updater", "Restored startup registration", none, none⟩, Prod.ext rfl rfl, rfl,
    Prod.ext rfl rfl, rfl, rfl⟩

end OpenGuard.Service
